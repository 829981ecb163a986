import Authrs.Query.Filter
import Authrs.SqlText.Parser

/-!
# The generated SQL means the filter

The meaning of a filter tree on a row is its leaves' operators on the mapped columns, joined as
the tree says. The fragment that `build` writes has this meaning wherever it stands as an operand
of `AND`, and its placeholders are the numbers of its parameters, in order. So a list endpoint
selects the rows that satisfy its own conjuncts and the tree.

## Main definitions

* `leafMeaning`, `FilterNode.meaning`: the truth of a tree on a row
* `Binds args n vs`: the values are bound from `$n` on
* `Means text n vs m`: the text has the placeholders of the values `vs` from `$n` on, and under
  these values the meaning `m`
* `Conjuncts`: the conjuncts of an endpoint; `select` the rows a condition selects

## Main results

* `buildLeaf_text`, `buildNode_means`: one leaf, and the tree
* `build_selects`: the rows that a list endpoint selects
-/

namespace Authrs.Query

open SqlText

section Meaning

variable {V : Type} (ops : Operators V)

/-! ### Bound values -/

/-- The values are bound from `$n` on, as texts. -/
def Binds (args : Nat → V) : Nat → List String → Prop
  | _, [] => True
  | n, v :: vs => args n = ops.text v ∧ Binds args (n + 1) vs

variable {ops}

theorem Binds.append {args : Nat → V} {n : Nat} {vs ws : List String} :
    Binds ops args n (vs ++ ws) ↔ Binds ops args n vs ∧ Binds ops args (n + vs.length) ws := by
  induction vs generalizing n with
  | nil => simp [Binds]
  | cons v vs ih =>
    simp only [List.cons_append, Binds, List.length_cons, ih, and_assoc]
    rw [Nat.add_right_comm n 1 vs.length, Nat.add_assoc n vs.length 1]

variable (ops)

/-! ### The meaning of a tree -/

/-- The truth of a leaf: the operator on the column and the values, with the cast of the field. -/
def leafMeaning (spec : FieldSpec) (op : RsqlOp) (values : List String) (row : String → V) :
    Truth :=
  let col := row spec.column.text
  let value := fun v => ops.castTo spec.ty.cast (ops.text v)
  let pattern := fun v => ops.text v
  match op with
  | .null isNull => ops.isNullTest (!isNull) col
  | .eq => ops.compare .eq col (value (firstValue values))
  | .neq => ops.compare .neq col (value (firstValue values))
  | .gt => ops.compare .gt col (value (firstValue values))
  | .ge => ops.compare .ge col (value (firstValue values))
  | .lt => ops.compare .lt col (value (firstValue values))
  | .le => ops.compare .le col (value (firstValue values))
  | .like => ops.like false col (pattern (firstValue values))
  | .ilike => ops.like true col (pattern (firstValue values))
  | .contains => ops.like true col (pattern ("%" ++ firstValue values ++ "%"))
  | .starts => ops.like true col (pattern (firstValue values ++ "%"))
  | .ends => ops.like true col (pattern ("%" ++ firstValue values))
  | .inList => ops.inList false col (values.map value)
  | .out => ops.inList true col (values.map value)
  | .between =>
    match values with
    | [v, v'] => ops.between col (value v) (value v')
    | _ => .unknown

variable (fields : FieldMap)

/-- **The truth of a tree** on a row, by its structure. No leaf of an unknown field holds. -/
def FilterNode.meaning (row : String → V) : FilterNode → Truth
  | .and cs => Truth.all (cs.map (meaning row))
  | .or cs => Truth.any (cs.map (meaning row))
  | .leaf field op values =>
    match lookup fields field with
    | .ok spec => leafMeaning ops spec op values row
    | .error _ => .no

/-! ### Texts with a meaning -/

/-- The text has the placeholders of the values, from `$n` on, and under them the meaning `m`. -/
def Means (text : String) (n : Nat) (vs : List String) (m : (String → V) → Truth) : Prop :=
  ∃ e, Denotes text (List.range' n vs.length) e ∧
    ∀ row args, Binds ops args n vs → e.eval ops row args = m row

/-- Several texts, with the values one after the other. -/
def MeansAll (texts : List String) (n : Nat) (vs : List String)
    (ms : (String → V) → List Truth) : Prop :=
  ∃ es, DenotesAll texts (List.range' n vs.length) es ∧
    ∀ row args, Binds ops args n vs → es.map (·.eval ops row args) = ms row

variable {ops}

theorem MeansAll.nil (n : Nat) : MeansAll ops [] n [] fun _ => [] := ⟨[], .nil, fun _ _ _ => rfl⟩

theorem MeansAll.cons {text : String} {texts : List String} {n : Nat} {vs ws : List String}
    {m : (String → V) → Truth} {ms : (String → V) → List Truth} (h : Means ops text n vs m)
    (hs : MeansAll ops texts (n + vs.length) ws ms) :
    MeansAll ops (text :: texts) n (vs ++ ws) fun row => m row :: ms row := by
  obtain ⟨e, he, heval⟩ := h
  obtain ⟨es, hes, hevals⟩ := hs
  refine ⟨e :: es, ?_, fun row args hbinds => ?_⟩
  · have hall := DenotesAll.cons he hes
    rw [List.range'_append_1] at hall
    rwa [List.length_append]
  · obtain ⟨hvs, hws⟩ := Binds.append.mp hbinds
    rw [List.map_cons, heval row args hvs, hevals row args hws]

/-- A group of texts. -/
theorem MeansAll.and {texts : List String} {n : Nat} {vs : List String}
    {ms : (String → V) → List Truth} (h : MeansAll ops texts n vs ms) (hne : texts ≠ []) :
    Means ops ("(" ++ join " AND " texts ++ ")") n vs fun row => Truth.all (ms row) := by
  obtain ⟨es, hes, heval⟩ := h
  unfold Means
  generalize List.range' n vs.length = ps at hes ⊢
  cases hes with
  | nil => exact absurd rfl hne
  | cons head tail =>
    refine ⟨_, Denotes.all (.cons head tail), fun row args hbinds => ?_⟩
    rw [Expr.eval_andAll, heval row args hbinds]

theorem MeansAll.or {texts : List String} {n : Nat} {vs : List String}
    {ms : (String → V) → List Truth} (h : MeansAll ops texts n vs ms) (hne : texts ≠ []) :
    Means ops ("(" ++ join " OR " texts ++ ")") n vs fun row => Truth.any (ms row) := by
  obtain ⟨es, hes, heval⟩ := h
  unfold Means
  generalize List.range' n vs.length = ps at hes ⊢
  cases hes with
  | nil => exact absurd rfl hne
  | cons head tail =>
    refine ⟨_, Denotes.any (.cons head tail), fun row args hbinds => ?_⟩
    rw [Expr.eval_orAll, heval row args hbinds]

/-- The text is a single condition on the column, with the placeholders of the values. -/
structure LeafText (ops : Operators V) (text : String) (col : ColumnRef) (n : Nat)
    (vs : List String) (m : (String → V) → Truth) (p : Predicate) : Prop where
  text_eq : text = p.text
  listed : p.Listed
  columns : p.columns = [col.text]
  params : p.params = List.range' n vs.length
  eval : ∀ row args, Binds ops args n vs → p.eval ops row args = m row

theorem LeafText.means {text : String} {col : ColumnRef} {n : Nat} {vs : List String}
    {m : (String → V) → Truth} {p : Predicate} (h : LeafText ops text col n vs m p) :
    Means ops text n vs m := by
  refine ⟨.pred p, ?_, h.eval⟩
  rw [← h.params, h.text_eq]
  exact Denotes.pred p h.listed

/-! ### Leaves -/

/-- A parameter, with the cast of the field. -/
theorem eval_param {args : Nat → V} {n : Nat} {v : String} (h : args n = ops.text v)
    (cast : Option TypeName) (row : String → V) :
    (Operand.param n cast).eval ops row args = ops.castTo cast (ops.text v) := by
  rw [Operand.eval, h]

theorem ph_text (b : Builder) (v : String) (cast : Option TypeName) :
    b.ph v cast = ((Operand.param b.next cast).text, ⟨b.params ++ [v], b.next + 1⟩) := by
  cases cast <;> rfl

/-- The placeholders of several values are consecutive. -/
theorem phs_eq (b : Builder) (cast : Option TypeName) (vs : List String) :
    b.phs cast vs =
      ((List.range' b.next vs.length).map fun n => (Operand.param n cast).text,
        ⟨b.params ++ vs, b.next + vs.length⟩) := by
  induction vs generalizing b with
  | nil => simp [Builder.phs]
  | cons v vs ih =>
    rw [Builder.phs, ph_text]
    simp only [ih, List.length_cons, List.range'_succ, List.map_cons, List.append_assoc,
      List.singleton_append, Nat.add_assoc, Nat.add_comm 1]

theorem eval_params {args : Nat → V} (cast : Option TypeName) (row : String → V)
    {n : Nat} {vs : List String} (h : Binds ops args n vs) :
    ((List.range' n vs.length).map fun k => Operand.param k cast).map (·.eval ops row args) =
      vs.map fun v => ops.castTo cast (ops.text v) := by
  induction vs generalizing n with
  | nil => rfl
  | cons v vs ih =>
    obtain ⟨hv, hvs⟩ := h
    rw [List.length_cons, List.range'_succ, List.map_cons, List.map_cons, List.map_cons, ih hvs,
      eval_param hv]

section Leaves

variable (ops) (b : Builder) (col : ColumnRef) (cast : Option TypeName)

theorem leafText_compare (o : CompareOp) (v : String) :
    LeafText ops (col.text ++ " " ++ o.text ++ " " ++ (b.ph v cast).1) col b.next [v]
      (fun row => ops.compare o (row col.text) (ops.castTo cast (ops.text v)))
      (.compare o (.column col) (.param b.next cast)) where
  text_eq := by rw [ph_text]; rfl
  listed := trivial
  columns := rfl
  params := rfl
  eval := by
    intro row args hbinds
    rw [Predicate.eval, eval_param hbinds.1]
    rfl

theorem leafText_like (ci : Bool) (v : String) :
    LeafText ops (col.text ++ (if ci then " ILIKE " else " LIKE ") ++ (b.ph v none).1) col b.next
      [v] (fun row => ops.like ci (row col.text) (ops.text v))
      (.like ci (.column col) (.param b.next none)) where
  text_eq := by
    rw [ph_text]
    cases ci <;> simp only [Predicate.text, Operand.text, String.append_assoc] <;> rfl
  listed := trivial
  columns := rfl
  params := rfl
  eval := by
    intro row args hbinds
    rw [Predicate.eval, eval_param hbinds.1]
    rfl

theorem leafText_isNull (isNull : Bool) (n : Nat) :
    LeafText ops (if isNull then col.text ++ " IS NULL" else col.text ++ " IS NOT NULL") col n []
      (fun row => ops.isNullTest (!isNull) (row col.text)) (.isNull (!isNull) (.column col)) where
  text_eq := by
    cases isNull <;> simp only [Predicate.text, Operand.text, Bool.not_true, Bool.not_false,
      String.append_assoc] <;> rfl
  listed := trivial
  columns := rfl
  params := rfl
  eval _ _ _ := rfl

theorem leafText_inList (negated : Bool) {vs : List String} (hvs : vs ≠ []) :
    LeafText ops (col.text ++ " " ++ (if negated then "NOT IN" else "IN") ++ " (" ++
        join ", " (b.phs cast vs).1 ++ ")") col b.next vs
      (fun row => ops.inList negated (row col.text) (vs.map fun v => ops.castTo cast (ops.text v)))
      (.inList negated (.column col)
        ((List.range' b.next vs.length).map fun n => .param n cast)) where
  text_eq := by
    rw [phs_eq]
    cases negated <;> simp only [Predicate.text, Operand.text, String.append_assoc, List.map_map]
      <;> rfl
  listed := by
    intro hnil
    rw [List.map_eq_nil_iff] at hnil
    exact hvs (List.length_eq_zero_iff.mp (by simpa using congrArg List.length hnil))
  columns := by
    have hnone : ((List.range' b.next vs.length).map fun n => Operand.param n cast).flatMap
        (·.columns) = [] := by
      rw [List.flatMap_map]
      exact List.flatMap_eq_nil_iff.mpr fun n _ => rfl
    rw [Predicate.columns, hnone]
    rfl
  params := by simp [Predicate.params, Operand.params, List.flatMap_map]
  eval := by
    intro row args hbinds
    rw [Predicate.eval, eval_params cast row hbinds]
    rfl

theorem leafText_between (v v' : String) :
    LeafText ops (col.text ++ " BETWEEN " ++ (b.ph v cast).1 ++ " AND " ++
        ((b.ph v cast).2.ph v' cast).1) col b.next [v, v']
      (fun row => ops.between (row col.text) (ops.castTo cast (ops.text v))
        (ops.castTo cast (ops.text v')))
      (.between (.column col) (.param b.next cast) (.param (b.next + 1) cast)) where
  text_eq := by
    rw [ph_text, ph_text]
    simp only [Predicate.text, Operand.text, String.append_assoc]
    rfl
  listed := trivial
  columns := rfl
  params := rfl
  eval := by
    intro row args hbinds
    rw [Predicate.eval, eval_param hbinds.1, eval_param hbinds.2.1]
    rfl

end Leaves

variable (ops)

/-- **What a leaf is turned into**: new parameters, and a single condition on its column. -/
theorem buildLeaf_text {b c : Builder} {field text : String} {op : RsqlOp}
    {values : List String} (h : buildLeaf fields b field op values = .ok (text, c)) :
    ∃ spec vs p, lookup fields field = .ok spec ∧ c = ⟨b.params ++ vs, b.next + vs.length⟩ ∧
      LeafText ops text spec.column b.next vs (leafMeaning ops spec op values) p := by
  obtain ⟨spec, hspec, h⟩ := bind_eq_ok.mp h
  split at h
  · cases h
  -- A comparison, a pattern and a list, each with its placeholders in the order of the arguments.
  have hcompare : ∀ o : CompareOp,
      Except.ok (spec.column.text ++ " " ++ o.text ++ " " ++
        (b.ph (firstValue values) spec.ty.cast).1, (b.ph (firstValue values) spec.ty.cast).2) =
        (Except.ok (text, c) : Except AppError _) →
      ∃ vs p, c = ⟨b.params ++ vs, b.next + vs.length⟩ ∧
        LeafText ops text spec.column b.next vs (fun row => ops.compare o (row spec.column.text)
          (ops.castTo spec.ty.cast (ops.text (firstValue values)))) p := by
    intro o heq
    have htext := leafText_compare ops b spec.column spec.ty.cast o (firstValue values)
    rw [ph_text] at heq htext
    cases heq
    exact ⟨_, _, rfl, htext⟩
  have hlike : ∀ (ci : Bool) (v : String),
      Except.ok (spec.column.text ++ (if ci then " ILIKE " else " LIKE ") ++ (b.ph v none).1,
        (b.ph v none).2) = (Except.ok (text, c) : Except AppError _) →
      ∃ vs p, c = ⟨b.params ++ vs, b.next + vs.length⟩ ∧ LeafText ops text spec.column b.next vs
        (fun row => ops.like ci (row spec.column.text) (ops.text v)) p := by
    intro ci v heq
    have htext := leafText_like ops b spec.column ci v
    rw [ph_text] at heq htext
    cases heq
    exact ⟨_, _, rfl, htext⟩
  have hlist : ∀ negated : Bool, values ≠ [] →
      Except.ok (spec.column.text ++ " " ++ (if negated then "NOT IN" else "IN") ++ " (" ++
        join ", " (b.phs spec.ty.cast values).1 ++ ")", (b.phs spec.ty.cast values).2) =
        (Except.ok (text, c) : Except AppError _) →
      ∃ vs p, c = ⟨b.params ++ vs, b.next + vs.length⟩ ∧ LeafText ops text spec.column b.next vs
        (fun row => ops.inList negated (row spec.column.text)
          (values.map fun v => ops.castTo spec.ty.cast (ops.text v))) p := by
    intro negated hne heq
    have htext := leafText_inList ops b spec.column spec.ty.cast negated hne
    rw [phs_eq] at heq htext
    cases heq
    exact ⟨_, _, rfl, htext⟩
  have hspecOf : (∃ vs p, c = ⟨b.params ++ vs, b.next + vs.length⟩ ∧
      LeafText ops text spec.column b.next vs (leafMeaning ops spec op values) p) →
      ∃ spec vs p, lookup fields field = .ok spec ∧ c = ⟨b.params ++ vs, b.next + vs.length⟩ ∧
        LeafText ops text spec.column b.next vs (leafMeaning ops spec op values) p := by
    rintro ⟨vs, p, hc, htext⟩
    exact ⟨spec, vs, p, hspec, hc, htext⟩
  refine hspecOf ?_
  cases op with
  | null isNull =>
    cases h
    exact ⟨[], _, by simp, leafText_isNull ops spec.column isNull b.next⟩
  | eq => exact hcompare .eq h
  | neq => exact hcompare .neq h
  | gt => exact hcompare .gt h
  | ge => exact hcompare .ge h
  | lt => exact hcompare .lt h
  | le => exact hcompare .le h
  | like => exact hlike false _ h
  | ilike => exact hlike true _ h
  | contains => exact hlike true _ h
  | starts => exact hlike true _ h
  | ends => exact hlike true _ h
  | inList =>
    dsimp only at h
    split at h
    · cases h
    · next hne => exact hlist false hne h
  | out =>
    dsimp only at h
    split at h
    · cases h
    · next hne => exact hlist true hne h
  | between =>
    dsimp only at h
    split at h
    · next v v' _ =>
      have htext := leafText_between ops b spec.column spec.ty.cast v v'
      rw [ph_text, ph_text] at h htext
      cases h
      exact ⟨[v, v'], _, by simp, htext⟩
    · cases h

/-- The text of a leaf means the leaf. -/
theorem buildLeaf_means {b c : Builder} {field text : String} {op : RsqlOp}
    {values : List String} (h : buildLeaf fields b field op values = .ok (text, c)) :
    ∃ vs, c = ⟨b.params ++ vs, b.next + vs.length⟩ ∧ Means ops text b.next vs fun row =>
      (FilterNode.leaf field op values).meaning ops fields row := by
  obtain ⟨spec, vs, p, hspec, hc, htext⟩ := buildLeaf_text ops fields h
  refine ⟨vs, hc, ?_⟩
  simp only [FilterNode.meaning, hspec]
  exact htext.means

/-! ### Trees -/

theorem buildNodes_cons {b c : Builder} {node : FilterNode} {cs : List FilterNode}
    {texts : List String} (h : buildNodes fields b (node :: cs) = .ok (texts, c)) :
    ∃ text b' rest, buildNode fields b node = .ok (text, b') ∧
      buildNodes fields b' cs = .ok (rest, c) ∧ texts = text :: rest := by
  rw [buildNodes] at h
  obtain ⟨⟨text, b'⟩, hnode, h⟩ := bind_eq_ok.mp h
  obtain ⟨⟨rest, c'⟩, hrest, h⟩ := bind_eq_ok.mp h
  cases h
  exact ⟨text, b', rest, hnode, hrest, rfl⟩

/-- The text of a node, as a single step of the traversal. -/
def NodeMeans (node : FilterNode) : Prop :=
  ∀ (b c : Builder) (text : String), buildNode fields b node = .ok (text, c) →
    ∃ vs, c = ⟨b.params ++ vs, b.next + vs.length⟩ ∧
      Means ops text b.next vs fun row => node.meaning ops fields row

/-- The children of a group, from left to right. -/
theorem buildNodes_means {cs : List FilterNode} (hcs : ∀ node ∈ cs, NodeMeans ops fields node)
    {b c : Builder} {texts : List String} (h : buildNodes fields b cs = .ok (texts, c)) :
    texts.length = cs.length ∧ ∃ vs, c = ⟨b.params ++ vs, b.next + vs.length⟩ ∧
      MeansAll ops texts b.next vs fun row => cs.map fun node => node.meaning ops fields row := by
  induction cs generalizing b texts with
  | nil =>
    rw [buildNodes] at h
    cases h
    exact ⟨rfl, [], by simp, .nil _⟩
  | cons node cs ih =>
    obtain ⟨text, b', rest, hnode, hrest, rfl⟩ := buildNodes_cons fields h
    obtain ⟨vs, rfl, hmeans⟩ := hcs node List.mem_cons_self b b' text hnode
    obtain ⟨hlen, ws, rfl, hmeansAll⟩ :=
      ih (fun n hn => hcs n (List.mem_cons_of_mem _ hn)) hrest
    refine ⟨congrArg Nat.succ hlen, vs ++ ws, ?_, MeansAll.cons hmeans hmeansAll⟩
    rw [List.append_assoc, List.length_append, Nat.add_assoc]

/-- **What a tree is turned into**: new parameters, and a text that means the tree. -/
theorem buildNode_means {node : FilterNode} (hnode : node.WellFormed) :
    NodeMeans ops fields node := by
  induction hnode with
  | @and cs hlen hcs ih =>
    intro b c text h
    rw [buildNode] at h
    obtain ⟨⟨texts, c'⟩, hchildren, h⟩ := bind_eq_ok.mp h
    cases h
    obtain ⟨htexts, vs, hvs, hmeans⟩ := buildNodes_means ops fields ih hchildren
    have hne : texts ≠ [] := by
      rintro rfl
      rw [← htexts] at hlen
      cases hlen
    refine ⟨vs, hvs, ?_⟩
    simp only [FilterNode.meaning]
    exact MeansAll.and hmeans hne
  | @or cs hlen hcs ih =>
    intro b c text h
    rw [buildNode] at h
    obtain ⟨⟨texts, c'⟩, hchildren, h⟩ := bind_eq_ok.mp h
    cases h
    obtain ⟨htexts, vs, hvs, hmeans⟩ := buildNodes_means ops fields ih hchildren
    have hne : texts ≠ [] := by
      rintro rfl
      rw [← htexts] at hlen
      cases hlen
    refine ⟨vs, hvs, ?_⟩
    simp only [FilterNode.meaning]
    exact MeansAll.or hmeans hne
  | leaf hop =>
    intro b c text h
    rw [buildNode] at h
    exact buildLeaf_means ops fields h

/-! ### The rows a list endpoint selects -/

/-- The conjuncts of an endpoint: single conditions joined by `AND`. -/
structure Conjuncts where
  first : Predicate
  others : List Predicate
  listed : ∀ p ∈ first :: others, p.Listed

namespace Conjuncts

/-- The text of the conjuncts. -/
def text (own : Conjuncts) : String := join " AND " ((own.first :: own.others).map (·.text))

/-- Whether all conjuncts are true. -/
def holds (own : Conjuncts) (row : String → V) (args : Nat → V) : Bool :=
  (own.first :: own.others).all fun p => p.eval ops row args = .yes

end Conjuncts

theorem listed_nil : ∀ p ∈ ([] : List Predicate), p.Listed := List.forall_mem_nil _

theorem listed_cons {p : Predicate} {ps : List Predicate} (hp : p.Listed)
    (hps : ∀ q ∈ ps, q.Listed) : ∀ q ∈ p :: ps, q.Listed :=
  List.forall_mem_cons.mpr ⟨hp, hps⟩

theorem isColumnName_status : SqlText.isColumnName "u.status" = true := by
  decide +kernel

/-- The conjuncts of the list endpoints. -/
def usersConjuncts (includeArchived : Bool) : Conjuncts where
  first := .compare .eq (.column ⟨"u.tenant_id", by decide +kernel⟩) (.param 1 none)
  others :=
    if includeArchived then []
    else [.compare .neq (.column ⟨"u.status", isColumnName_status⟩) (.literal ⟨"archived", by decide +kernel⟩)]
  listed := by
    cases includeArchived with
    | true => exact listed_cons trivial listed_nil
    | false => exact listed_cons trivial (listed_cons trivial listed_nil)

def usersByGroupConjuncts : Conjuncts where
  first := .compare .eq (.column ⟨"u.tenant_id", by decide +kernel⟩) (.param 1 none)
  others := [.compare .eq (.column ⟨"ug.group_id", by decide +kernel⟩) (.param 2 none)]
  listed := listed_cons trivial (listed_cons trivial listed_nil)

def tenantConjuncts : Conjuncts where
  first := .compare .eq (.column ⟨"tenant_id", by decide +kernel⟩) (.param 1 none)
  others := []
  listed := listed_cons trivial listed_nil

def permissionsConjuncts : Conjuncts where
  first := .compare .eq (.column ⟨"tenant_id", by decide +kernel⟩) (.param 1 none)
  others := [.isNull true (.column ⟨"document", by decide +kernel⟩)]
  listed := listed_cons trivial (listed_cons trivial listed_nil)

/-- What the list endpoints write before a filter are conjuncts. -/
theorem endpoints_conjuncts :
    (∀ includeArchived, usersWhere includeArchived = (usersConjuncts includeArchived).text) ∧
      usersByGroupWhere = usersByGroupConjuncts.text ∧ groupsWhere = tenantConjuncts.text ∧
      rolesWhere = tenantConjuncts.text ∧ permissionsWhere = permissionsConjuncts.text := by
  refine ⟨by decide +kernel, by decide +kernel, by decide +kernel, by decide +kernel,
    by decide +kernel⟩

variable {fields}

/-- **The SQL of a list endpoint means the filter.** The placeholders of the fragment are the
numbers of its parameters, in order; the whole clause is a condition, and the rows it selects are
those on which the endpoint's conjuncts hold and the tree is true. -/
theorem build_selects (toLowercase : String → String) (own : Conjuncts) {input : String}
    {node : FilterNode} {sort : List SortSpec} {start : Nat} {built : BuiltQuery}
    (hparse : parseRsql toLowercase input = .ok node)
    (hbuild : build fields (some node) sort start = .ok built) :
    (lex built.whereSql).map placeholders = some (List.range' start built.params.length) ∧
      listWhere own.text built = own.text ++ " AND " ++ built.whereSql ∧
      ∃ e, condition (listWhere own.text built) = some e ∧
        ∀ args, Binds ops args start built.params → ∀ rows,
          selected ops args e rows = rows.filter fun row =>
            own.holds ops row args && (node.meaning ops fields row = .yes) := by
  rw [build] at hbuild
  obtain ⟨⟨whereSql, b⟩, hwhere, hbuild⟩ := bind_eq_ok.mp hbuild
  obtain ⟨orderSql, -, hbuild⟩ := bind_eq_ok.mp hbuild
  cases hbuild
  obtain ⟨vs, rfl, e, hdenotes, heval⟩ :=
    buildNode_means ops fields (parseRsql_wellFormed toLowercase hparse) _ _ _ hwhere
  have hclause : listWhere own.text ⟨whereSql, orderSql, [] ++ vs⟩ =
      own.text ++ " AND " ++ whereSql := if_neg hdenotes.ne_empty
  refine ⟨?_, hclause, ?_⟩
  · obtain ⟨ts, hreads, hplaceholders, -⟩ := hdenotes
    rw [hreads.lex, Option.map_some, hplaceholders, List.nil_append]
  -- the whole clause joins the endpoint's conjuncts and the fragment
  have hall := (DenotesAll.preds own.listed).append (.cons hdenotes .nil)
  have hcondition := condition_join hall
  have htext : join " AND " ((own.first :: own.others).map (·.text) ++ [whereSql]) =
      own.text ++ " AND " ++ whereSql := join_append_singleton _ (by simp) whereSql
  refine ⟨_, (congrArg condition (hclause.trans htext.symm)).trans hcondition, ?_⟩
  intro args hbinds rows
  refine List.filter_congr fun row _ => ?_
  have htree : e.eval ops row args = node.meaning ops fields row := heval row args hbinds
  rw [Expr.eval_andAll, Bool.eq_iff_iff, decide_eq_true_iff, Bool.and_eq_true,
    decide_eq_true_iff, Truth.all_eq_yes, ← htree, Conjuncts.holds, List.all_eq_true]
  change (∀ t ∈ ((own.first :: own.others).map Expr.pred ++ [e]).map _, t = Truth.yes) ↔ _
  simp only [List.map_append, List.map_map, List.forall_mem_append, List.forall_mem_map,
    List.map_singleton, List.forall_mem_singleton, decide_eq_true_iff]
  rfl

end Meaning

/-- Operators on texts, which may be `NULL`, for patterns without wildcards. -/
def textOperators : Operators (Option String) where
  isNull v := v.isNone
  compare o a b :=
    match a, b with
    | some a, some b =>
      .ofBool (match o with
        | .eq => a = b
        | .neq => a ≠ b
        | .gt => b < a
        | .ge => ¬ a < b
        | .lt => a < b
        | .le => ¬ b < a)
    | _, _ => .unknown
  like _ a b :=
    match a, b with
    | some a, some b => .ofBool (a = b)
    | _, _ => .unknown
  cast _ v := v
  text v := some v

/-- A filter of memberships: active ones of either name. -/
theorem build_selects_users :
    ∃ node built e, parseRsql id "status==active;(username==ann,username==bob)" = .ok node ∧
      build userFilterFields (some node) [] 2 = .ok built ∧
      built.whereSql = "(u.status = $2 AND (u.username = $3 OR u.username = $4))" ∧
      condition (listWhere (usersConjuncts true).text built) = some e ∧
      ∀ args, Binds textOperators args 2 built.params → ∀ rows,
        selected textOperators args e rows = rows.filter fun row =>
          (usersConjuncts true).holds textOperators row args &&
            (node.meaning textOperators userFilterFields row = .yes) := by
  have hrun : ((parseRsql id "status==active;(username==ann,username==bob)").bind fun node =>
      (build userFilterFields (some node) [] 2).map (·.whereSql)).toOption =
      some "(u.status = $2 AND (u.username = $3 OR u.username = $4))" := by decide +kernel
  cases hparse : parseRsql id "status==active;(username==ann,username==bob)" with
  | error e =>
    rw [hparse] at hrun
    cases hrun
  | ok node =>
    rw [hparse] at hrun
    change ((build userFilterFields (some node) [] 2).map (·.whereSql)).toOption = _ at hrun
    cases hbuild : build userFilterFields (some node) [] 2 with
    | error e =>
      rw [hbuild] at hrun
      cases hrun
    | ok built =>
      rw [hbuild] at hrun
      obtain ⟨-, -, e, hcondition, hselected⟩ :=
        build_selects textOperators id (usersConjuncts true) hparse hbuild
      exact ⟨node, built, e, rfl, hbuild, Option.some.inj hrun, hcondition, hselected⟩

end Authrs.Query
