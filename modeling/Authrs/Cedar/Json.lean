import Authrs.Base.Json
import Authrs.Cedar.Policy

/-!
# The JSON format of policies

How a policy of the fragment is written as JSON. A scope constraint names its operator, a
condition is a `when` clause with an expression as its body, and an expression is an object with
the operator as its only key: literals under `Value`, variables under `Var`, attribute access under
`.`, and the operands of a comparison under `left` and `right`.

## Main definitions

* `IsTypeName`: the names of entity types
* `Policy.toJson`: the JSON of a policy
* `Policy.Valid`: policies that have a JSON
* `ExprJson`: the JSON values that are expressions, as far as the operators of the fragment go
* `Policy.ofJson`: the policy of the fragment that a JSON is

## Main results

* `not_exprJson_array`: the operands of a comparison are no array
* `Policy.ofJson_toJson`: a policy is read back from its JSON
-/

namespace Cedar

open Authrs (Json)

/-! ### Names -/

def isIdentStart (c : Char) : Bool :=
  ('a' ≤ c && c ≤ 'z') || ('A' ≤ c && c ≤ 'Z') || c == '_'

def isIdentContinue (c : Char) : Bool := isIdentStart c || ('0' ≤ c && c ≤ '9')

/-- The words that are no identifiers. -/
def reservedWords : List String :=
  ["true", "false", "if", "then", "else", "in", "is", "like", "has", "__cedar"]

def isIdent (s : String) : Bool :=
  match s.toList with
  | [] => false
  | c :: cs => isIdentStart c && cs.all isIdentContinue && !reservedWords.contains s

/-- The text of a name with its namespaces. -/
def pathText (path : List String) : String :=
  .ofList ([':', ':'].intercalate (path.map String.toList))

/-- The name of an entity type: identifiers, separated by `::`. -/
def IsTypeName (s : String) : Prop :=
  ∃ path : List String, path ≠ [] ∧ (∀ p ∈ path, isIdent p = true) ∧ s = pathText path

/-- The name of an entity type whose entities are actions. -/
def IsActionType (s : String) : Prop :=
  ∃ path : List String, (∀ p ∈ path, isIdent p = true) ∧ s = pathText (path ++ ["Action"])

theorem isIdentContinue_of_isIdent {s : String} (h : isIdent s = true) :
    ∀ c ∈ s.toList, isIdentContinue c = true := by
  rw [isIdent] at h
  split at h
  · cases h
  · rename_i c cs heq
    simp only [Bool.and_eq_true, List.all_eq_true] at h
    rw [heq, List.forall_mem_cons]
    exact ⟨by rw [isIdentContinue, h.1.1, Bool.true_or], h.1.2⟩

/-- No type name has a quote in it. -/
theorem IsTypeName.quote_notMem {s : String} (h : IsTypeName s) : '"' ∉ s.toList := by
  obtain ⟨path, -, hpath, rfl⟩ := h
  rw [pathText, String.toList_ofList]
  induction path with
  | nil => exact List.not_mem_nil
  | cons p ps ih =>
    rw [List.forall_mem_cons] at hpath
    have hp : '"' ∉ p.toList := fun hq =>
      absurd (isIdentContinue_of_isIdent hpath.1 _ hq) (by decide)
    have hps := ih hpath.2
    cases ps with
    | nil => simpa using hp
    | cons q qs =>
      rw [List.map_cons, List.map_cons, List.intercalate_cons_cons]
      simpa [hp] using hps

/-! ### Policies -/

def EntityUid.toJson (u : EntityUid) : Json :=
  .object [("id", .string u.eid), ("type", .string u.typeName)]

def Prim.toJson : Prim → Json
  | .bool b => .bool b
  | .long n => .int n
  | .string s => .string s

def PatternElem.toJson : PatternElem → Json
  | .wildcard => .string "Wildcard"
  | .literal s => .object [("Literal", .string s)]

def Var.text : Var → String
  | .principal => "principal"
  | .action => "action"
  | .resource => "resource"
  | .context => "context"

def CompareOp.text : CompareOp → String
  | .eq => "=="
  | .neq => "!="
  | .lt => "<"
  | .gt => ">"

def Expr.toJson : Expr → Json
  | .lit p => .object [("Value", p.toJson)]
  | .attr v name =>
    .object [(".", .object [("attr", .string name), ("left", .object [("Var", .string v.text)])])]
  | .like e pattern =>
    .object [("like", .object [("left", e.toJson), ("pattern", .array (pattern.map PatternElem.toJson))])]
  | .compare op l r => .object [(op.text, .object [("left", l.toJson), ("right", r.toJson)])]

def Effect.text : Effect → String
  | .permit => "permit"
  | .forbid => "forbid"

def Scope.toJson : Scope → Json
  | .all => .object [("op", .string "All")]
  | .eq u => .object [("entity", u.toJson), ("op", .string "==")]
  | .isIn u => .object [("entity", u.toJson), ("op", .string "in")]

/-- A `when` clause. -/
def whenClause (body : Json) : Json := .object [("body", body), ("kind", .string "when")]

/-- The JSON of a policy; its id is not part of it. -/
def Policy.toJson (p : Policy) : Json :=
  .object [("action", p.action.toJson),
    ("conditions", .array (p.conditions.map fun e => whenClause e.toJson)),
    ("effect", .string p.effect.text),
    ("principal", p.principal.toJson),
    ("resource", p.resource.toJson)]

/-- Its literals fit 64 bits. -/
def Expr.Valid : Expr → Prop
  | .lit (.long n) => -9223372036854775808 ≤ n ∧ n ≤ 9223372036854775807
  | .lit _ => True
  | .attr _ _ => True
  | .like e _ => e.Valid
  | .compare _ l r => l.Valid ∧ r.Valid

/-- The entity it names is of a type with the property. -/
def Scope.Names (isType : String → Prop) : Scope → Prop
  | .all => True
  | .eq u => isType u.typeName
  | .isIn u => isType u.typeName

/-- The types it names are names of types, and its action is an action. -/
structure Policy.Valid (p : Policy) : Prop where
  principal : p.principal.Names IsTypeName
  action : p.action.Names IsActionType
  resource : p.resource.Names IsTypeName
  conditions : ∀ e ∈ p.conditions, e.Valid

/-! ### What is no expression -/

/-- The variables of an expression. -/
def varNames : List String := ["principal", "action", "resource", "context"]

/-- The operators with a left and a right operand. -/
def binaryOperators : List String :=
  ["==", "!=", "<", "<=", ">", ">=", "&&", "||", "+", "-", "*", "in", "contains", "containsAll",
    "containsAny", "getTag", "hasTag"]

/-- An object is an expression: it has one key, the operator. What stands under an operator that
is not listed is left open. -/
inductive ExprJson : Json → Prop
  | value (v : Json) : ExprJson (.object [("Value", v)])
  | var {name : String} (h : name ∈ varNames) : ExprJson (.object [("Var", .string name)])
  | binary {op : String} {l r : Json} (hop : op ∈ binaryOperators) (hl : ExprJson l)
      (hr : ExprJson r) : ExprJson (.object [(op, .object [("left", l), ("right", r)])])
  | other {op : String} (v : Json) (hop : op ∉ "Value" :: "Var" :: binaryOperators) :
      ExprJson (.object [(op, v)])

/-- **The operands of a comparison are no array.** -/
theorem not_exprJson_array (op : CompareOp) (items : List Json) :
    ¬ ExprJson (.object [(op.text, .array items)]) := by
  intro h
  generalize hj : Json.object [(op.text, .array items)] = j at h
  cases h with
  | value v =>
    simp only [Json.object.injEq, List.cons.injEq, Prod.mk.injEq] at hj
    exact absurd hj.1.1 (by cases op <;> decide)
  | var h => simp at hj
  | binary => simp at hj
  | other v hop =>
    simp only [Json.object.injEq, List.cons.injEq, Prod.mk.injEq] at hj
    rw [← hj.1.1] at hop
    exact hop (by cases op <;> decide)

theorem exprJson_compare {op : CompareOp} {l r : Json} (hl : ExprJson l) (hr : ExprJson r) :
    ExprJson (.object [(op.text, .object [("left", l), ("right", r)])]) :=
  .binary (by cases op <;> decide) hl hr

/-- The JSON of a policy whose conditions all are expressions. -/
def ConditionsJson (j : Json) : Prop :=
  ∀ clauses, j.get? "conditions" = some (.array clauses) →
    ∀ c ∈ clauses, ∃ body, c.get? "body" = some body ∧ ExprJson body

/-! ### Reading the fragment -/

def Prim.ofJson : Json → Option Prim
  | .bool b => some (.bool b)
  | .int n => if -9223372036854775808 ≤ n ∧ n ≤ 9223372036854775807 then some (.long n) else none
  | .string s => some (.string s)
  | _ => none

def PatternElem.ofJson : Json → Option PatternElem
  | .string "Wildcard" => some .wildcard
  | .object [("Literal", .string s)] => some (.literal s)
  | _ => none

def Var.ofText (s : String) : Option Var :=
  [Var.principal, .action, .resource, .context].find? fun v => v.text = s

def CompareOp.ofText (s : String) : Option CompareOp :=
  [CompareOp.eq, .neq, .lt, .gt].find? fun op => op.text = s

def Expr.ofJson : Json → Option Expr
  | .object [("Value", v)] => (Prim.ofJson v).map .lit
  | .object [(".", .object [("attr", .string name), ("left", .object [("Var", .string v)])])] =>
    (Var.ofText v).map (.attr · name)
  | .object [("like", .object [("left", l), ("pattern", .array ps)])] =>
    (Expr.ofJson l).bind fun e => (ps.mapM PatternElem.ofJson).map (.like e)
  | .object [(op, .object [("left", l), ("right", r)])] =>
    (CompareOp.ofText op).bind fun op =>
      (Expr.ofJson l).bind fun a => (Expr.ofJson r).map (.compare op a)
  | _ => none

def EntityUid.ofJson : Json → Option EntityUid
  | .object [("id", .string eid), ("type", .string typeName)] => some ⟨typeName, eid⟩
  | _ => none

def Effect.ofText : String → Option Effect
  | "permit" => some .permit
  | "forbid" => some .forbid
  | _ => none

def Scope.ofJson : Json → Option Scope
  | .object [("op", .string "All")] => some .all
  | .object [("entity", u), ("op", .string "==")] => (EntityUid.ofJson u).map .eq
  | .object [("entity", u), ("op", .string "in")] => (EntityUid.ofJson u).map .isIn
  | _ => none

def whenBody : Json → Option Expr
  | .object [("body", body), ("kind", .string "when")] => Expr.ofJson body
  | _ => none

/-- The policy of the fragment that a JSON is, under an id. -/
def Policy.ofJson (id : String) : Json → Option Policy
  | .object [("action", a), ("conditions", .array cs), ("effect", .string e), ("principal", p),
      ("resource", r)] =>
    (Scope.ofJson a).bind fun action =>
      (cs.mapM whenBody).bind fun conditions =>
        (Effect.ofText e).bind fun effect =>
          (Scope.ofJson p).bind fun principal =>
            (Scope.ofJson r).map fun resource =>
              ⟨id, effect, principal, action, resource, conditions⟩
  | _ => none

theorem Prim.ofJson_toJson {p : Prim} (hp : (Expr.lit p).Valid) : Prim.ofJson p.toJson = some p := by
  cases p with
  | long n => exact if_pos hp
  | _ => rfl

theorem PatternElem.ofJson_toJson (e : PatternElem) : PatternElem.ofJson e.toJson = some e := by
  cases e <;> rfl

theorem mapM_ofJson {α : Type} {read : Json → Option α} {write : α → Json} {l : List α}
    (h : ∀ a ∈ l, read (write a) = some a) : (l.map write).mapM read = some l := by
  induction l with
  | nil => rfl
  | cons a l ih =>
    rw [List.forall_mem_cons] at h
    rw [List.map_cons, List.mapM_cons, h.1, ih h.2]
    rfl

/-- **An expression of the fragment is read back from its JSON.** -/
theorem Expr.ofJson_toJson {e : Expr} (he : e.Valid) : Expr.ofJson e.toJson = some e := by
  induction e with
  | lit p =>
    change (Prim.ofJson p.toJson).map Expr.lit = _
    rw [Prim.ofJson_toJson he, Option.map_some]
  | attr v name => cases v <;> rfl
  | like e pattern ih =>
    change (Expr.ofJson e.toJson).bind _ = _
    rw [ih he, Option.bind_some, mapM_ofJson fun a _ => a.ofJson_toJson, Option.map_some]
  | compare op l r ihl ihr =>
    have hop : Expr.ofJson (Expr.compare op l r).toJson = (Expr.ofJson l.toJson).bind fun a =>
        (Expr.ofJson r.toJson).map (.compare op a) := by
      cases op <;> rfl
    rw [hop, ihl he.1, ihr he.2]
    rfl

theorem Scope.ofJson_toJson (s : Scope) : Scope.ofJson s.toJson = some s := by
  cases s <;> rfl

/-- **A policy of the fragment is read back from its JSON.** -/
theorem Policy.ofJson_toJson {p : Policy} (hp : p.Valid) (id : String) :
    Policy.ofJson id p.toJson = some { p with id := id } := by
  have hconditions : (p.conditions.map fun e => whenClause e.toJson).mapM whenBody =
      some p.conditions :=
    mapM_ofJson (fun e he => Expr.ofJson_toJson (hp.conditions e he))
  have heffect : Effect.ofText p.effect.text = some p.effect := by cases p.effect <;> rfl
  change (Scope.ofJson p.action.toJson).bind _ = _
  rw [Scope.ofJson_toJson, hconditions, heffect, Scope.ofJson_toJson, Scope.ofJson_toJson]
  rfl

theorem CompareOp.text_of_ofText {s : String} {op : CompareOp} (h : CompareOp.ofText s = some op) :
    op.text = s := by
  simpa using List.find?_some h

/-- What is read as an expression is one. -/
theorem Expr.exprJson_of_ofJson {j : Json} {e : Expr} (h : Expr.ofJson j = some e) :
    ExprJson j := by
  fun_induction Expr.ofJson j generalizing e with
  | case1 v => exact .value v
  | case2 => exact .other _ (by decide)
  | case3 => exact .other _ (by decide)
  | case4 name l r _ ihl ihr =>
    obtain ⟨op, hop, h⟩ := Option.bind_eq_some_iff.mp h
    obtain ⟨a, ha, h⟩ := Option.bind_eq_some_iff.mp h
    obtain ⟨b, hb, -⟩ := Option.map_eq_some_iff.mp h
    rw [← CompareOp.text_of_ofText hop]
    exact exprJson_compare (ihl ha) (ihr hb)
  | case5 => cases h

theorem exists_of_mapM {α β : Type} {read : α → Option β} {l : List α} {bs : List β}
    (h : l.mapM read = some bs) : ∀ a ∈ l, ∃ b, read a = some b := by
  induction l generalizing bs with
  | nil => exact List.forall_mem_nil _
  | cons a l ih =>
    rw [List.mapM_cons] at h
    obtain ⟨b, hb, h⟩ := Option.bind_eq_some_iff.mp h
    obtain ⟨bs', hbs, -⟩ := Option.bind_eq_some_iff.mp h
    exact List.forall_mem_cons.mpr ⟨⟨b, hb⟩, ih hbs⟩

theorem whenBody_eq_some {j : Json} {e : Expr} (h : whenBody j = some e) :
    ∃ body, j.get? "body" = some body ∧ ExprJson body := by
  unfold whenBody at h
  split at h
  · rename_i body
    exact ⟨body, rfl, Expr.exprJson_of_ofJson h⟩
  · cases h

/-- What is read as a policy has expressions as its conditions. -/
theorem Policy.conditionsJson_of_ofJson {j : Json} {id : String} {p : Policy}
    (h : Policy.ofJson id j = some p) : ConditionsJson j := by
  unfold Policy.ofJson at h
  split at h
  · rename_i a cs e pr r
    obtain ⟨action, -, h⟩ := Option.bind_eq_some_iff.mp h
    obtain ⟨conditions, hcs, -⟩ := Option.bind_eq_some_iff.mp h
    intro clauses hclauses c hc
    have hget : (Json.object [("action", a), ("conditions", .array cs), ("effect", .string e),
        ("principal", pr), ("resource", r)]).get? "conditions" = some (.array cs) := rfl
    rw [hget, Option.some.injEq, Json.array.injEq] at hclauses
    subst hclauses
    obtain ⟨body, hbody⟩ := exists_of_mapM hcs c hc
    exact whenBody_eq_some hbody
  · cases h
end Cedar
