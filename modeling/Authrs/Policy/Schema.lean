import Authrs.Base.Text
import Authrs.Relational.Distinct
import Mathlib.Data.List.Pairwise

/-!
# The text of the schema

Builds the Cedar schema text from the registered packages and tables. Actions come from three sources:
the CRUD names of the registered tables, the built-in actions of queries and views, and the stored
actions. Each becomes a line, and the lines are sorted and their repetitions dropped; so an action is
declared twice when two sources give it with different `appliesTo` clauses. A table whose name is made
of underscores has an empty PascalCase name, and its CRUD action `get` is the built-in one.

## Main definitions

* `CaseTable`: upper case in Unicode
* `toPascalCase`, `crudActionNames`, `extensibleActionNames`, `buildSchemaStr`: their namesakes in the
  source
* `declaredActions`: the actions that a schema text declares
* `DeclaresOnce`: every action of the registry is declared once, and nothing else

## Main results

* `declaredActions_buildSchemaStr`: the declared actions are those of the action lines
* `declaresOnce_iff`: each action is declared once when no table has an empty PascalCase name
* `blankTable_declaresTwice`: a table `_` declares `get` a second time
-/

namespace Authrs

open Relational

/-- `char::to_uppercase`: a character in upper case can be several, but never none. -/
structure CaseTable where
  toUppercase : Char → List Char
  toUppercase_ne_nil : ∀ c, toUppercase c ≠ []
  toUppercase_blank : toUppercase ' ' = [' ']
  /-- No letter has a quote, a backslash or a line feed in its upper case. -/
  toUppercase_plain : ∀ c, c ≠ '"' → c ≠ '\\' → c ≠ '\n' →
    '"' ∉ toUppercase c ∧ '\\' ∉ toUppercase c ∧ '\n' ∉ toUppercase c

namespace Schema

/-! ### Names -/

/-- Standard CRUD verbs derived for every registered table. -/
def CRUD_VERBS : List String := ["get", "post", "patch", "put", "delete", "archive", "unarchive"]

/-- Compound verbs derived for every table flagged `extensible`. -/
def EXTENSIBLE_VERBS : List String :=
  ["getExtensibleFields", "putExtensibleFields", "deleteExtensibleFields"]

/-- Built-in actions on `Query` resources. -/
def QUERY_ACTIONS : List String := ["run"]

/-- Built-in actions on `View` resources. -/
def VIEW_ACTIONS : List String := ["get", "refresh"]

/-- Whether an action is a built-in one rather than a package-registered one. -/
def isBuiltinAction (action : String) : Bool :=
  QUERY_ACTIONS.contains action || VIEW_ACTIONS.contains action

variable (U : CaseTable)

/-- A word with its first character in upper case. -/
def capitalize : List Char → List Char
  | [] => []
  | c :: cs => U.toUppercase c ++ cs

/-- Converts a snake_case table name to PascalCase. -/
def toPascalCase (s : String) : String :=
  String.ofList ((s.toList.splitOn '_').flatMap (capitalize U))

/-- CRUD action names for a table. -/
def crudActionNames (table : String) : List String := CRUD_VERBS.map (· ++ toPascalCase U table)

/-- Extensible-fields action names for a table. -/
def extensibleActionNames (table : String) : List String :=
  EXTENSIBLE_VERBS.map (· ++ toPascalCase U table)

/-! ### The text -/

def resourceTypes : String := "[Service, Package, Table, Column, Query, View]"

/-- The `appliesTo` clause for a list of resource types. -/
def appliesTo (types : String) : String :=
  "appliesTo \x7b principal: [User], resource: " ++ types ++ " \x7d"

def actionLine (actionName clause : String) : String :=
  "  action \"" ++ actionName ++ "\" " ++ clause ++ ";"

/-- The action lines, sorted and without repetitions. -/
def actionLines (packageTables customActions : List (String × String)) : List String :=
  let crud := packageTables.flatMap fun (_, tableName) =>
    (crudActionNames U tableName).map fun actionName => actionLine actionName (appliesTo resourceTypes)
  let query := QUERY_ACTIONS.map fun actionName => actionLine actionName (appliesTo "[Query]")
  let view := VIEW_ACTIONS.map fun actionName => actionLine actionName (appliesTo "[View]")
  -- The built-in declaration wins over a stored action of its name.
  let custom := (customActions.filter fun (_, a) => !isBuiltinAction a).map fun (_, actionName) =>
    actionLine actionName (appliesTo resourceTypes)
  distinctBy id (crud ++ query ++ view ++ custom)

def entityLines : List String :=
  ["namespace AuthRS \x7b",
    "  entity User in [Role];",
    "  entity Role;",
    "  entity Service = \x7b path: String \x7d;",
    "  entity Package in [Service] = \x7b path: String \x7d;",
    "  entity Table in [Package] = \x7b path: String \x7d;",
    "  entity Column in [Table] = \x7b path: String \x7d;",
    "  entity Query in [Package] = \x7b path: String \x7d;",
    "  entity View in [Package] = \x7b path: String \x7d;"]

/-- **The full Cedar schema text.** -/
def buildSchemaStr (packageTables customActions : List (String × String)) : String :=
  let actions := joinStr (actionLines U packageTables customActions) '\n'
  joinStr (entityLines ++ [actions] ++ ["\x7d"]) '\n'

/-! ### Reading it -/

/-- The action that a line declares. -/
def declaredAction (line : String) : Option String :=
  let start := "  action \"".toList
  if start.isPrefixOf line.toList then
    some (String.ofList ((line.toList.drop start.length).takeWhile (· ≠ '"')))
  else none

/-- **The actions that a schema text declares**, one for each action line. -/
def declaredActions (text : String) : List String :=
  (splitChar text '\n').filterMap declaredAction

/-- The actions of a registry: the CRUD names of its tables, its stored actions and the built-in
ones. -/
def registryActions (packageTables customActions : List (String × String)) : List String :=
  packageTables.flatMap (fun x => crudActionNames U x.2) ++ customActions.map Prod.snd ++
    QUERY_ACTIONS ++ VIEW_ACTIONS

/-- **Every action of a registry is declared on exactly one line, and nothing else is.** -/
structure DeclaresOnce (packageTables customActions : List (String × String)) : Prop where
  once : (declaredActions (buildSchemaStr U packageTables customActions)).Nodup
  exactly : ∀ a, a ∈ declaredActions (buildSchemaStr U packageTables customActions) ↔
    a ∈ registryActions U packageTables customActions

/-- A name without quotes, backslashes and line feeds. -/
def PlainName (s : String) : Prop := '"' ∉ s.toList ∧ '\\' ∉ s.toList ∧ '\n' ∉ s.toList

variable {U} {packageTables customActions : List (String × String)}

/-! #### Names without quotes -/

theorem PlainName.append {s t : String} (hs : PlainName s) (ht : PlainName t) :
    PlainName (s ++ t) := by
  simp only [PlainName, String.toList_append, List.mem_append, not_or]
  exact ⟨⟨hs.1, ht.1⟩, ⟨hs.2.1, ht.2.1⟩, hs.2.2, ht.2.2⟩

/-- The characters of a PascalCase name, read from the left: the flag is for the start of a word. -/
def pascalChars (U : CaseTable) : Bool → List Char → List Char
  | _, [] => []
  | start, c :: cs =>
    if c = '_' then pascalChars U true cs
    else (if start then U.toUppercase c else [c]) ++ pascalChars U false cs

theorem pascalChars_splitOn {l p : List Char} {ps : List (List Char)} (h : l.splitOn '_' = p :: ps) :
    pascalChars U true l = capitalize U p ++ ps.flatMap (capitalize U) ∧
      pascalChars U false l = p ++ ps.flatMap (capitalize U) := by
  induction l generalizing p ps with
  | nil =>
    rw [List.splitOn_nil] at h
    obtain ⟨rfl, rfl⟩ := List.cons.inj h
    exact ⟨rfl, rfl⟩
  | cons c l ih =>
    cases hsplit : l.splitOn '_' with
    | nil => exact absurd hsplit (List.splitOn_ne_nil _ l)
    | cons q qs =>
      obtain ⟨htrue, hfalse⟩ := ih hsplit
      rw [List.splitOn_cons_eq_if_modifyHead, hsplit] at h
      by_cases hc : c = '_'
      · rw [if_pos (beq_iff_eq.mpr hc)] at h
        obtain ⟨rfl, rfl⟩ := List.cons.inj h
        simp [pascalChars, hc, htrue, capitalize]
      · rw [if_neg (by simpa using hc), List.modifyHead_cons] at h
        obtain ⟨rfl, rfl⟩ := List.cons.inj h
        simp [pascalChars, hc, hfalse, capitalize]

theorem toList_toPascalCase (s : String) :
    (toPascalCase U s).toList = pascalChars U true s.toList := by
  rw [toPascalCase, String.toList_ofList]
  cases hsplit : s.toList.splitOn '_' with
  | nil => exact absurd hsplit (List.splitOn_ne_nil _ _)
  | cons p ps => rw [(pascalChars_splitOn hsplit).1, List.flatMap_cons]

theorem plain_pascalChars {l : List Char} (h : '"' ∉ l ∧ '\\' ∉ l ∧ '\n' ∉ l) (start : Bool) :
    '"' ∉ pascalChars U start l ∧ '\\' ∉ pascalChars U start l ∧ '\n' ∉ pascalChars U start l := by
  induction l generalizing start with
  | nil => simp [pascalChars]
  | cons c l ih =>
    simp only [List.mem_cons, not_or] at h
    obtain ⟨⟨hq, hql⟩, ⟨hb, hbl⟩, hn, hnl⟩ := h
    rw [pascalChars]
    split
    · exact ih ⟨hql, hbl, hnl⟩ true
    · obtain ⟨hq', hb', hn'⟩ := ih ⟨hql, hbl, hnl⟩ false
      have hupper := U.toUppercase_plain c (Ne.symm hq) (Ne.symm hb) (Ne.symm hn)
      simp only [List.mem_append, not_or]
      cases start with
      | true => exact ⟨⟨hupper.1, hq'⟩, ⟨hupper.2.1, hb'⟩, hupper.2.2, hn'⟩
      | false =>
        simp only [Bool.false_eq_true, if_false, List.mem_singleton]
        exact ⟨⟨hq, hq'⟩, ⟨hb, hb'⟩, hn, hn'⟩

/-- The PascalCase name of a plain name is plain. -/
theorem PlainName.toPascalCase {s : String} (h : PlainName s) : PlainName (toPascalCase U s) := by
  unfold PlainName
  rw [toList_toPascalCase]
  exact plain_pascalChars h true

/-- **A PascalCase name is empty** when the name is made of underscores. -/
theorem toPascalCase_eq_empty {s : String} :
    Schema.toPascalCase U s = "" ↔ ∀ c ∈ s.toList, c = '_' := by
  have hchars : ∀ l : List Char, pascalChars U true l = [] ↔ ∀ c ∈ l, c = '_' := by
    intro l
    induction l with
    | nil => simp [pascalChars]
    | cons c l ih =>
      rw [pascalChars, List.forall_mem_cons]
      split
      · rename_i hc
        rw [ih]
        exact (and_iff_right hc).symm
      · rename_i hc
        simp [hc, U.toUppercase_ne_nil c]
  rw [← hchars, ← toList_toPascalCase, String.toList_eq_nil_iff]

/-! #### Lines -/

theorem appliesTo_plain : ∀ types ∈ [resourceTypes, "[Query]", "[View]"],
    '\n' ∉ (appliesTo types).toList := by decide

/-- **An action line declares its action.** -/
theorem declaredAction_actionLine {a clause : String} (ha : '"' ∉ a.toList) :
    declaredAction (actionLine a clause) = some a := by
  have hline : (actionLine a clause).toList =
      "  action \"".toList ++ (a.toList ++ '"' :: (" ".toList ++ clause.toList ++ ";".toList)) := by
    simp [actionLine]
  have htake : (a.toList ++ '"' :: (" ".toList ++ clause.toList ++ ";".toList)).takeWhile (· ≠ '"') =
      a.toList := by
    rw [List.takeWhile_append_of_pos fun c hc => ?_, List.takeWhile_cons_of_neg (by simp),
      List.append_nil]
    simp only [ne_eq, decide_eq_true_eq]
    rintro rfl
    exact ha hc
  rw [declaredAction, hline, if_pos (List.isPrefixOf_iff_prefix.mpr (List.prefix_append _ _)),
    List.drop_left, htake, String.ofList_toList]

theorem actionLine_inj {a a' clause clause' : String} (ha : '"' ∉ a.toList) (ha' : '"' ∉ a'.toList) :
    actionLine a clause = actionLine a' clause' ↔ a = a' ∧ clause = clause' := by
  constructor
  · intro h
    have hname := congrArg declaredAction h
    rw [declaredAction_actionLine ha, declaredAction_actionLine ha'] at hname
    obtain rfl := Option.some.inj hname
    have hlist := congrArg String.toList h
    simp only [actionLine, String.toList_append, List.append_assoc, List.append_cancel_left_eq] at hlist
    exact ⟨rfl, String.toList_inj.mp (List.append_cancel_right hlist)⟩
  · rintro ⟨rfl, rfl⟩
    rfl

/-- The clauses with which the sources declare an action. -/
inductive Declares (U : CaseTable) (packageTables customActions : List (String × String)) :
    String → String → Prop
  | crud {p t a : String} (ht : (p, t) ∈ packageTables) (ha : a ∈ crudActionNames U t) :
    Declares U packageTables customActions a (appliesTo resourceTypes)
  | query {a : String} (ha : a ∈ QUERY_ACTIONS) :
    Declares U packageTables customActions a (appliesTo "[Query]")
  | view {a : String} (ha : a ∈ VIEW_ACTIONS) :
    Declares U packageTables customActions a (appliesTo "[View]")
  | custom {p a : String} (ha : (p, a) ∈ customActions) (hb : isBuiltinAction a = false) :
    Declares U packageTables customActions a (appliesTo resourceTypes)

theorem mem_actionLines {line : String} : line ∈ actionLines U packageTables customActions ↔
    ∃ a clause, Declares U packageTables customActions a clause ∧ line = actionLine a clause := by
  rw [actionLines, mem_distinctBy_id]
  simp only [List.mem_append, List.mem_flatMap, List.mem_map, List.mem_filter]
  constructor
  · rintro (((⟨⟨p, t⟩, ht, a, ha, rfl⟩ | ⟨a, ha, rfl⟩) | ⟨a, ha, rfl⟩) | ⟨⟨p, a⟩, ⟨ha, hb⟩, rfl⟩)
    · exact ⟨a, _, .crud ht ha, rfl⟩
    · exact ⟨a, _, .query ha, rfl⟩
    · exact ⟨a, _, .view ha, rfl⟩
    · exact ⟨a, _, .custom ha (by simpa using hb), rfl⟩
  · rintro ⟨a, clause, hdeclares, rfl⟩
    cases hdeclares with
    | crud ht ha => exact .inl (.inl (.inl ⟨_, ht, a, ha, rfl⟩))
    | query ha => exact .inl (.inl (.inr ⟨a, ha, rfl⟩))
    | view ha => exact .inl (.inr ⟨a, ha, rfl⟩)
    | custom ha hb => exact .inr ⟨_, ⟨ha, by simpa using hb⟩, rfl⟩

/-- The pieces of a join are the pieces of its parts. -/
theorem splitChar_joinStr_parts {parts : List String} {c : Char} (hne : parts ≠ []) :
    splitChar (joinStr parts c) c = parts.flatMap fun p => splitChar p c := by
  induction parts with
  | nil => exact absurd rfl hne
  | cons p parts ih =>
    cases parts with
    | nil => simp [joinStr]
    | cons q parts =>
      have hjoin : (joinStr (p :: q :: parts) c).toList =
          p.toList ++ c :: (joinStr (q :: parts) c).toList := by
        simp [joinStr, List.intercalate_cons_cons]
      rw [splitChar, hjoin, List.splitOn_append_cons_of_beq _ _ (beq_self_eq_true c),
        List.map_append, List.flatMap_cons, ← ih (List.cons_ne_nil _ _)]
      rfl

/-! #### Declared actions -/

section Registry

variable (hT : ∀ x ∈ packageTables, PlainName x.2) (hA : ∀ x ∈ customActions, PlainName x.2)

include hT hA

theorem Declares.plain {a clause : String}
    (h : Declares U packageTables customActions a clause) : PlainName a := by
  have hverbs : ∀ v ∈ CRUD_VERBS, PlainName v := by unfold PlainName; decide
  have hbuiltin : ∀ v ∈ QUERY_ACTIONS ++ VIEW_ACTIONS, PlainName v := by unfold PlainName; decide
  cases h with
  | crud ht ha =>
    obtain ⟨v, hv, rfl⟩ := List.mem_map.mp ha
    exact (hverbs v hv).append (hT _ ht).toPascalCase
  | query ha => exact hbuiltin a (List.mem_append_left _ ha)
  | view ha => exact hbuiltin a (List.mem_append_right _ ha)
  | custom ha => exact hA _ ha

/-- The lines of the text. -/
theorem splitChar_buildSchemaStr :
    splitChar (buildSchemaStr U packageTables customActions) '\n' =
      entityLines ++ actionLines U packageTables customActions ++ ["\x7d"] := by
  have hentities : entityLines.flatMap (fun p => splitChar p '\n') = entityLines := by
    decide +kernel
  have hlines : ∀ line ∈ actionLines U packageTables customActions, '\n' ∉ line.toList := by
    intro line hline
    obtain ⟨a, clause, hdeclares, rfl⟩ := mem_actionLines.mp hline
    have hclause : '\n' ∉ clause.toList := by
      cases hdeclares <;> exact appliesTo_plain _ (by simp)
    simp [actionLine, (hdeclares.plain hT hA).2.2, hclause]
  have hne : actionLines U packageTables customActions ≠ [] := by
    refine List.ne_nil_of_mem (a := actionLine "run" (appliesTo "[Query]")) ?_
    exact mem_actionLines.mpr ⟨_, _, .query (by decide), rfl⟩
  have hclose : splitChar "\x7d" '\n' = ["\x7d"] := by decide
  rw [buildSchemaStr, splitChar_joinStr_parts (by simp), List.flatMap_append,
    List.flatMap_append, List.flatMap_singleton, List.flatMap_singleton, hentities,
    splitChar_joinStr hne hlines, hclose]

/-- **The declared actions are those of the action lines.** -/
theorem declaredActions_buildSchemaStr :
    declaredActions (buildSchemaStr U packageTables customActions) =
      (actionLines U packageTables customActions).filterMap declaredAction := by
  have hnone : entityLines.filterMap declaredAction = [] := by decide +kernel
  have hclose : ["\x7d"].filterMap declaredAction = [] := by decide
  rw [declaredActions, splitChar_buildSchemaStr hT hA, List.filterMap_append, List.filterMap_append,
    hnone, hclose, List.nil_append, List.append_nil]

theorem mem_declaredActions {a : String} :
    a ∈ declaredActions (buildSchemaStr U packageTables customActions) ↔
      ∃ clause, Declares U packageTables customActions a clause := by
  rw [declaredActions_buildSchemaStr hT hA, List.mem_filterMap]
  constructor
  · rintro ⟨line, hline, ha⟩
    obtain ⟨a', clause, hdeclares, rfl⟩ := mem_actionLines.mp hline
    rw [declaredAction_actionLine (hdeclares.plain hT hA).1] at ha
    obtain rfl := Option.some.inj ha
    exact ⟨clause, hdeclares⟩
  · rintro ⟨clause, hdeclares⟩
    exact ⟨_, mem_actionLines.mpr ⟨a, clause, hdeclares, rfl⟩,
      declaredAction_actionLine (hdeclares.plain hT hA).1⟩

/-- An action is declared once when the sources give it one clause. -/
theorem nodup_declaredActions :
    (declaredActions (buildSchemaStr U packageTables customActions)).Nodup ↔
      ∀ a clause clause', Declares U packageTables customActions a clause →
        Declares U packageTables customActions a clause' → clause = clause' := by
  rw [declaredActions_buildSchemaStr hT hA, List.Nodup, List.pairwise_filterMap]
  have hnodup : (actionLines U packageTables customActions).Nodup :=
    (pairwise_distinctBy id _).imp fun h => h.ne
  constructor
  · intro h a clause clause' hd hd'
    by_contra hne
    have hplain := (hd.plain hT hA).1
    have hlines : actionLine a clause ≠ actionLine a clause' := by
      rw [ne_eq, actionLine_inj hplain hplain]
      exact fun hsame => hne hsame.2
    have : Std.Symm fun x y : String => ∀ b, declaredAction x = some b →
        ∀ b', declaredAction y = some b' → b ≠ b' :=
      ⟨fun x y hxy b hb b' hb' => (hxy b' hb' b hb).symm⟩
    exact h.forall (mem_actionLines.mpr ⟨a, clause, hd, rfl⟩)
      (mem_actionLines.mpr ⟨a, clause', hd', rfl⟩) hlines a (declaredAction_actionLine hplain) a
      (declaredAction_actionLine hplain) rfl
  · intro h
    refine hnodup.pairwise_of_forall_ne fun x hx y hy hxy b hb b' hb' heq => ?_
    obtain ⟨a, clause, hd, rfl⟩ := mem_actionLines.mp hx
    obtain ⟨a', clause', hd', rfl⟩ := mem_actionLines.mp hy
    rw [declaredAction_actionLine (hd.plain hT hA).1] at hb
    rw [declaredAction_actionLine (hd'.plain hT hA).1] at hb'
    obtain rfl := Option.some.inj hb
    obtain rfl := Option.some.inj hb'
    subst heq
    exact hxy (by rw [h a clause clause' hd hd'])

end Registry

/-- A CRUD name that is a built-in action is of a table with an empty PascalCase name. -/
theorem toPascalCase_of_builtin {t a : String} (ha : a ∈ crudActionNames U t)
    (hb : isBuiltinAction a = true) : toPascalCase U t = "" := by
  obtain ⟨v, hv, rfl⟩ := List.mem_map.mp ha
  have hverb : ∀ v ∈ CRUD_VERBS, ∀ b ∈ QUERY_ACTIONS ++ VIEW_ACTIONS,
      v.toList <+: b.toList → v = b := by decide +kernel
  have hmem : v ++ toPascalCase U t ∈ QUERY_ACTIONS ++ VIEW_ACTIONS := by
    simpa [isBuiltinAction] using hb
  have hstart : v.toList <+: (v ++ toPascalCase U t).toList := by
    rw [String.toList_append]
    exact List.prefix_append _ _
  have hsame := congrArg String.toList (hverb v hv _ hmem hstart)
  rw [String.toList_append, List.self_eq_append_right, String.toList_eq_nil_iff] at hsame
  exact hsame

/-- The clause of an action, when no CRUD name is a built-in action. -/
theorem Declares.clause_eq
    (hcrud : ∀ p t a, (p, t) ∈ packageTables → a ∈ crudActionNames U t → isBuiltinAction a = false)
    {a clause : String} (h : Declares U packageTables customActions a clause) :
    clause = if a ∈ QUERY_ACTIONS then appliesTo "[Query]"
      else if a ∈ VIEW_ACTIONS then appliesTo "[View]" else appliesTo resourceTypes := by
  have hnone : isBuiltinAction a = false → a ∉ QUERY_ACTIONS ∧ a ∉ VIEW_ACTIONS := by
    simp [isBuiltinAction]
  have hdisjoint : ∀ a ∈ VIEW_ACTIONS, a ∉ QUERY_ACTIONS := by decide
  cases h with
  | crud ht ha =>
    obtain ⟨hquery, hview⟩ := hnone (hcrud _ _ _ ht ha)
    rw [if_neg hquery, if_neg hview]
  | query ha => rw [if_pos ha]
  | view ha => rw [if_neg (hdisjoint a ha), if_pos ha]
  | custom _ hb =>
    obtain ⟨hquery, hview⟩ := hnone hb
    rw [if_neg hquery, if_neg hview]

/-- The sources declare the actions of the registry. -/
theorem exists_declares {a : String} :
    (∃ clause, Declares U packageTables customActions a clause) ↔
      a ∈ registryActions U packageTables customActions := by
  simp only [registryActions, List.mem_append, List.mem_flatMap, List.mem_map]
  constructor
  · rintro ⟨_, (⟨ht, ha⟩ | ha | ha | ⟨ha, -⟩)⟩
    · exact .inl (.inl (.inl ⟨_, ht, ha⟩))
    · exact .inl (.inr ha)
    · exact .inr ha
    · exact .inl (.inl (.inr ⟨_, ha, rfl⟩))
  · rintro (((⟨⟨p, t⟩, ht, ha⟩ | ⟨⟨p, a⟩, ha, rfl⟩) | ha) | ha)
    · exact ⟨_, .crud ht ha⟩
    · -- A stored action with the name of a built-in one has the declaration of that.
      by_cases hb : isBuiltinAction a = true
      · rw [isBuiltinAction, Bool.or_eq_true, List.contains_iff_mem, List.contains_iff_mem] at hb
        rcases hb with hquery | hview
        · exact ⟨_, .query hquery⟩
        · exact ⟨_, .view hview⟩
      · exact ⟨_, .custom ha (Bool.eq_false_iff.mpr hb)⟩
    · exact ⟨_, .query ha⟩
    · exact ⟨_, .view ha⟩

section Registry

variable (hT : ∀ x ∈ packageTables, PlainName x.2) (hA : ∀ x ∈ customActions, PlainName x.2)

include hT hA

/-- No action is declared twice when no table has an empty PascalCase name. -/
theorem nodup_declaredActions_iff_named :
    (declaredActions (buildSchemaStr U packageTables customActions)).Nodup ↔
      ∀ x ∈ packageTables, ∃ c ∈ x.2.toList, c ≠ '_' := by
  have hclauses : appliesTo resourceTypes ≠ appliesTo "[View]" := by decide
  rw [nodup_declaredActions hT hA]
  constructor
  · rintro honce ⟨p, t⟩ ht
    by_contra hblank
    push Not at hblank
    -- The CRUD action `get` of the table is the built-in action on views.
    have hget : "get" ∈ crudActionNames U t := by
      refine List.mem_map.mpr ⟨"get", by decide, ?_⟩
      rw [toPascalCase_eq_empty.mpr hblank, String.append_empty]
    exact hclauses (honce "get" _ _ (.crud ht hget) (.view (by decide)))
  · intro hnames a clause clause' hd hd'
    have hnotBuiltin : ∀ p t a, (p, t) ∈ packageTables → a ∈ crudActionNames U t →
        isBuiltinAction a = false := by
      intro p t a ht ha
      by_contra hb
      obtain ⟨c, hc, hne⟩ := hnames _ ht
      rw [Bool.not_eq_false] at hb
      exact hne (toPascalCase_eq_empty.mp (toPascalCase_of_builtin ha hb) c hc)
    rw [hd.clause_eq hnotBuiltin, hd'.clause_eq hnotBuiltin]

/-- Every action line has an opening and a closing quote, and no other line has one. -/
theorem even_count_quote :
    (buildSchemaStr U packageTables customActions).toList.count '"' % 2 = 0 := by
  have hjoin : ∀ parts : List String, (∀ p ∈ parts, p.toList.count '"' % 2 = 0) →
      (joinStr parts '\n').toList.count '"' % 2 = 0 := by
    intro parts hparts
    induction parts with
    | nil => rfl
    | cons p parts ih =>
      have hp := hparts p List.mem_cons_self
      have hrest := ih fun q hq => hparts q (List.mem_cons_of_mem p hq)
      cases parts with
      | nil => simpa [joinStr] using hp
      | cons q parts =>
        have hcons : (joinStr (p :: q :: parts) '\n').toList =
            p.toList ++ '\n' :: (joinStr (q :: parts) '\n').toList := by
          simp [joinStr, List.intercalate_cons_cons]
        rw [hcons, List.count_append, List.count_cons_of_ne (by decide)]
        omega
  have hclause : ∀ types ∈ [resourceTypes, "[Query]", "[View]"],
      (appliesTo types).toList.count '"' = 0 := by decide
  have hactions : ∀ line ∈ actionLines U packageTables customActions,
      line.toList.count '"' % 2 = 0 := by
    intro line hline
    obtain ⟨a, clause, hdeclares, rfl⟩ := mem_actionLines.mp hline
    have hname : a.toList.count '"' = 0 := List.count_eq_zero.mpr (hdeclares.plain hT hA).1
    have hzero : clause.toList.count '"' = 0 := by
      cases hdeclares <;> exact hclause _ (by simp)
    have hopen : "  action \"".toList.count '"' = 1 := by decide
    have hclose : "\" ".toList.count '"' = 1 := by decide
    have hend : ";".toList.count '"' = 0 := by decide
    simp only [actionLine, String.toList_append, List.count_append, hname, hzero, hopen, hclose, hend]
  have hentities : ∀ line ∈ entityLines, line.toList.count '"' % 2 = 0 := by decide
  refine hjoin _ fun p hp => ?_
  simp only [List.append_assoc, List.mem_append, List.mem_singleton] at hp
  rcases hp with hp | rfl | rfl
  · exact hentities p hp
  · exact hjoin _ hactions
  · decide

end Registry

/-- **Each action is declared exactly once** when no table has an empty PascalCase name: each has a
character other than the underscore. -/
theorem declaresOnce_iff (hT : ∀ x ∈ packageTables, PlainName x.2)
    (hA : ∀ x ∈ customActions, PlainName x.2) :
    DeclaresOnce U packageTables customActions ↔
      ∀ x ∈ packageTables, ∃ c ∈ x.2.toList, c ≠ '_' := by
  rw [← nodup_declaredActions_iff_named hT hA]
  constructor
  · exact DeclaresOnce.once
  · intro honce
    refine ⟨honce, fun a => ?_⟩
    rw [mem_declaredActions hT hA]
    exact exists_declares

/-- `toUpper` changes nothing, or gives a letter. -/
theorem toUpper_eq_or (c : Char) : c.toUpper = c ∨ 'A' ≤ c.toUpper ∧ c.toUpper ≤ 'Z' := by
  unfold Char.toUpper
  split
  · rename_i h
    right
    have hlow : 97 ≤ c.val.toNat := UInt32.le_iff_toNat_le.mp h.1
    have hhigh : c.val.toNat ≤ 122 := UInt32.le_iff_toNat_le.mp h.2
    have hval : (c.val + ('A'.val - 'a'.val)).toNat = c.val.toNat - 32 := by
      -- The difference is negative, and wraps.
      have hdiff : ('A'.val - 'a'.val).toNat = 2 ^ 32 - 32 := by decide
      rw [UInt32.toNat_add, hdiff]
      omega
    have hA : 'A'.val.toNat = 65 := by decide
    have hZ : 'Z'.val.toNat = 90 := by decide
    rw [Char.le_def, Char.le_def, UInt32.le_iff_toNat_le, UInt32.le_iff_toNat_le]
    simp only [hval]
    omega
  · exact .inl rfl

theorem asciiCase_plain (c : Char) (hquote : c ≠ '"') (hescape : c ≠ '\\') (hfeed : c ≠ '\n') :
    '"' ∉ [c.toUpper] ∧ '\\' ∉ [c.toUpper] ∧ '\n' ∉ [c.toUpper] := by
  simp only [List.mem_singleton]
  rcases toUpper_eq_or c with hsame | ⟨hlow, hhigh⟩
  · rw [hsame]
    exact ⟨hquote.symm, hescape.symm, hfeed.symm⟩
  · refine ⟨?_, ?_, ?_⟩ <;> intro heq <;> rw [← heq] at hlow hhigh
    · exact absurd hlow (by decide)
    · exact absurd hhigh (by decide)
    · exact absurd hlow (by decide)

/-- Upper case of the letters of ASCII. -/
def asciiCase : CaseTable where
  toUppercase c := [c.toUpper]
  toUppercase_ne_nil _ := List.cons_ne_nil _ _
  toUppercase_blank := rfl
  toUppercase_plain := asciiCase_plain

theorem declaresOnce_contacts :
    DeclaresOnce asciiCase [("crm", "contacts"), ("erp", "contacts")] [("crm", "refresh")] := by
  refine (declaresOnce_iff (by unfold PlainName; decide) (by unfold PlainName; decide)).mpr ?_
  have hc : 'c' ∈ "contacts".toList := by decide
  simp only [List.forall_mem_cons, List.not_mem_nil, false_imp_iff, implies_true, and_true, and_self]
  exact ⟨'c', hc, by decide⟩

/-- A table `_` has a CRUD action `get`, which the view action `get` is too. -/
theorem blankTable_declaresTwice :
    ¬ ∀ (U : CaseTable) (packageTables customActions : List (String × String)),
      (∀ x ∈ packageTables, PlainName x.2) → (∀ x ∈ customActions, PlainName x.2) →
        DeclaresOnce U packageTables customActions := by
  intro h
  have honce := (h asciiCase [("crm", "_")] [] (by unfold PlainName; decide) (by simp)).once
  have hget : "get" ∈ crudActionNames asciiCase "_" := by decide
  have hclause := (nodup_declaredActions (by unfold PlainName; decide) (by simp)).mp honce "get" _ _
    (.crud List.mem_cons_self hget) (.view (by decide))
  exact absurd hclause (by decide)

end Schema

end Authrs
