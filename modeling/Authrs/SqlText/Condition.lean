import Mathlib.Data.List.Basic

/-!
# Conditions of a WHERE clause

The conditions that select the rows of a query: comparisons of columns with bound parameters,
joined by `AND` and `OR`. Truth is three-valued, and a row is selected when the condition is true.
What the leaf operators do to values is a parameter.

## Main definitions

* `Truth`, `Truth.and`, `Truth.or`: Kleene's three truth values
* `ColumnRef`: a column name that the lexer reads as one word
* `Operand`, `Predicate`, `Expr`: the conditions
* `Operators`: what the operators of the leaves do
* `Expr.eval`: the truth of a condition on a row

## Main results

* `Truth.and_eq_yes`, `Truth.all_eq_yes`: a conjunction is true when its members are
* `Expr.eval_andAll`, `Expr.eval_orAll`: conjunctions and disjunctions of several conditions
-/

namespace SqlText

/-! ### Truth values -/

/-- Truth values: a comparison with `NULL` is unknown. -/
inductive Truth
  | no
  | unknown
  | yes
  deriving DecidableEq

namespace Truth

/-- `AND`. -/
def and : Truth → Truth → Truth
  | no, _ => no
  | _, no => no
  | yes, b => b
  | a, yes => a
  | unknown, unknown => unknown

/-- `OR`. -/
def or : Truth → Truth → Truth
  | yes, _ => yes
  | _, yes => yes
  | no, b => b
  | a, no => a
  | unknown, unknown => unknown

/-- `NOT`. -/
def not : Truth → Truth
  | no => yes
  | unknown => unknown
  | yes => no

def ofBool : Bool → Truth
  | true => yes
  | false => no

/-- `AND` of a list, and `OR` of a list. -/
def all (ts : List Truth) : Truth := ts.foldr and yes
def any (ts : List Truth) : Truth := ts.foldr or no

@[simp] theorem and_yes (a : Truth) : a.and yes = a := by cases a <;> rfl

@[simp] theorem or_no (a : Truth) : a.or no = a := by cases a <;> rfl

/-- A conjunction is true when both sides are. -/
theorem and_eq_yes {a b : Truth} : a.and b = yes ↔ a = yes ∧ b = yes := by
  cases a <;> cases b <;> simp [and]

/-- A conjunction of a list is true when all its members are. -/
theorem all_eq_yes {ts : List Truth} : all ts = yes ↔ ∀ t ∈ ts, t = yes := by
  induction ts with
  | nil => simp [all]
  | cons t ts ih =>
    change t.and (all ts) = yes ↔ _
    rw [and_eq_yes, ih, List.forall_mem_cons]

end Truth

/-! ### Conditions -/

/-- The characters of names: a dot qualifies a column with its table. -/
def isNameStart (c : Char) : Bool := c.isAlpha || c == '_'
def isNameChar (c : Char) : Bool := c.isAlpha || c.isDigit || c == '_' || c == '.'

/-- The words of the grammar, which name no column. -/
def keywords : List String :=
  ["AND", "OR", "NOT", "IS", "NULL", "IN", "LIKE", "ILIKE", "BETWEEN", "ORDER", "BY", "ASC",
    "DESC"]

/-- Keywords are read in either case. -/
def upper (s : String) : String := String.ofList (s.toList.map Char.toUpper)

/-- Whether a text is one word. -/
def isWord (s : String) : Bool :=
  match s.toList with
  | [] => false
  | c :: cs => isNameStart c && cs.all isNameChar

/-- Whether a text is a column name. -/
def isColumnName (s : String) : Bool := isWord s && !keywords.contains (upper s)

/-- A column name. -/
structure ColumnRef where
  text : String
  valid : isColumnName text = true

/-- A text constant: its quotes would end it. -/
structure Literal where
  text : String
  valid : '\'' ∉ text.toList

/-- The types of casts. -/
inductive TypeName
  | bigint
  | doublePrecision
  | boolean
  | uuid
  | date
  | timestamptz
  | time
  deriving DecidableEq

/-- The words of a type name. -/
def TypeName.words : TypeName → List String
  | bigint => ["bigint"]
  | doublePrecision => ["double", "precision"]
  | boolean => ["boolean"]
  | uuid => ["uuid"]
  | date => ["date"]
  | timestamptz => ["timestamptz"]
  | time => ["time"]

/-- A column, a parameter with an optional cast, or a text constant. -/
inductive Operand
  | column (name : ColumnRef)
  | param (n : Nat) (cast : Option TypeName)
  | literal (l : Literal)

inductive CompareOp
  | eq
  | neq
  | gt
  | ge
  | lt
  | le
  deriving DecidableEq

/-- A condition on one operand. -/
inductive Predicate
  | compare (op : CompareOp) (a b : Operand)
  | like (caseInsensitive : Bool) (a b : Operand)
  | isNull (negated : Bool) (a : Operand)
  | inList (negated : Bool) (a : Operand) (items : List Operand)
  | between (a lo hi : Operand)

/-- A condition. -/
inductive Expr
  | pred (p : Predicate)
  | and (a b : Expr)
  | or (a b : Expr)

/-- What the operators of the leaves do to the values of a database. -/
structure Operators (V : Type) where
  isNull : V → Bool
  compare : CompareOp → V → V → Truth
  like : (caseInsensitive : Bool) → V → V → Truth
  cast : TypeName → V → V
  text : String → V

section Eval

variable {V : Type} (ops : Operators V) (row : String → V) (args : Nat → V)

def Operators.castTo (t : Option TypeName) (v : V) : V :=
  match t with
  | some t => ops.cast t v
  | none => v

/-- `a IN (…)`: an equation with one of the items; `NOT IN` is its negation. -/
def Operators.inList (negated : Bool) (a : V) (items : List V) : Truth :=
  let found := Truth.any (items.map fun b => ops.compare .eq a b)
  if negated then found.not else found

/-- `a BETWEEN lo AND hi`: both comparisons. -/
def Operators.between (a lo hi : V) : Truth :=
  (ops.compare .ge a lo).and (ops.compare .le a hi)

/-- `a IS NULL`, and `a IS NOT NULL`. -/
def Operators.isNullTest (negated : Bool) (a : V) : Truth :=
  .ofBool (if negated then !ops.isNull a else ops.isNull a)

def Operand.eval : Operand → V
  | column name => row name.text
  | param n cast => ops.castTo cast (args n)
  | literal l => ops.text l.text

def Predicate.eval : Predicate → Truth
  | compare op a b => ops.compare op (a.eval ops row args) (b.eval ops row args)
  | like ci a b => ops.like ci (a.eval ops row args) (b.eval ops row args)
  | isNull negated a => ops.isNullTest negated (a.eval ops row args)
  | inList negated a items =>
    ops.inList negated (a.eval ops row args) (items.map (·.eval ops row args))
  | between a lo hi =>
    ops.between (a.eval ops row args) (lo.eval ops row args) (hi.eval ops row args)

/-- **The truth of a condition** on a row, under the bound parameters. -/
def Expr.eval : Expr → Truth
  | pred p => p.eval ops row args
  | and a b => a.eval.and b.eval
  | or a b => a.eval.or b.eval

end Eval

/-! ### Conjunctions and disjunctions of several conditions -/

/-- `e AND …`, and `e OR …`. -/
def Expr.andAll : Expr → List Expr → Expr
  | e, [] => e
  | e, e' :: es => .and e (andAll e' es)

def Expr.orAll : Expr → List Expr → Expr
  | e, [] => e
  | e, e' :: es => .or e (orAll e' es)

section EvalAll

variable {V : Type} (ops : Operators V) (row : String → V) (args : Nat → V)

theorem Expr.eval_andAll (e : Expr) (es : List Expr) :
    (e.andAll es).eval ops row args = Truth.all ((e :: es).map (·.eval ops row args)) := by
  induction es generalizing e with
  | nil => exact (Truth.and_yes _).symm
  | cons e' es ih =>
    change (e.eval ops row args).and ((e'.andAll es).eval ops row args) = _
    rw [ih]
    rfl

theorem Expr.eval_orAll (e : Expr) (es : List Expr) :
    (e.orAll es).eval ops row args = Truth.any ((e :: es).map (·.eval ops row args)) := by
  induction es generalizing e with
  | nil => exact (Truth.or_no _).symm
  | cons e' es ih =>
    change (e.eval ops row args).or ((e'.orAll es).eval ops row args) = _
    rw [ih]
    rfl

end EvalAll

/-! ### Selection -/

/-- The rows of a table that a condition selects: it is true on them. -/
def selected {V : Type} (ops : Operators V) (args : Nat → V) (e : Expr)
    (rows : List (String → V)) : List (String → V) :=
  rows.filter fun row => e.eval ops row args = .yes

end SqlText
