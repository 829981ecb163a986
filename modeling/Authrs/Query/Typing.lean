import Authrs.Query.Meaning
import Authrs.Query.Printing

/-!
# Filters and the types of their fields

A value of a typed field is bound as a text, and the SQL casts it. The builder looks at the operator
only, so the casts succeed exactly when the values in the filter are texts of the types of their
fields. What the casts accept is a parameter.

## Main definitions

* `Converts`: every parameter under a cast is accepted by it
* `FilterNode.WellTyped`: every value of a typed field is a text of its type

## Main results

* `buildLeaf_converts`, `buildNode_converts`: one leaf, and the tree
* `parse_build_error`: a rejected query is an invalid filter
* `build_converts_iff`: a filter that is built converts exactly when it is well typed
* `ill_typed_built`: a filter that is built and does not convert
-/

namespace Authrs.Query

open SqlText

section Typing

variable {V : Type} (ops : Operators V) (accepts : TypeName → V → Prop)

/-- **The casts of a condition accept their parameters.** -/
def Converts (args : Nat → V) (e : Expr) : Prop := ∀ c ∈ e.casts, accepts c.2 (args c.1)

/-- The values are texts that the cast accepts, if there is one. -/
def Castable (cast : Option TypeName) (values : List String) : Prop :=
  ∀ t ∈ cast, ∀ v ∈ values, accepts t (ops.text v)

/-- **Every value of a typed field** is a text of its type. -/
def FilterNode.WellTyped (fields : FieldMap) (node : FilterNode) : Prop :=
  node.Leaves fun field values =>
    ∀ spec, lookup fields field = .ok spec → Castable ops accepts spec.ty.cast values

/-- The text is a condition on the parameters from `$n` on, which converts when `P` holds. -/
def TypedText (text : String) (n : Nat) (vs : List String) (P : Prop) : Prop :=
  ∃ e, Denotes text (List.range' n vs.length) e ∧
    ∀ args, Binds ops args n vs → (Converts accepts args e ↔ P)

/-- Several texts, with the values one after the other. -/
def TypedTexts (texts : List String) (n : Nat) (vs : List String) (P : Prop) : Prop :=
  ∃ es, DenotesAll texts (List.range' n vs.length) es ∧
    ∀ args, Binds ops args n vs → ((∀ e ∈ es, Converts accepts args e) ↔ P)

variable {ops accepts} {text : String} {texts : List String} {n : Nat} {vs ws : List String}
  {P Q : Prop}

theorem TypedTexts.cons (h : TypedText ops accepts text n vs P)
    (hs : TypedTexts ops accepts texts (n + vs.length) ws Q) :
    TypedTexts ops accepts (text :: texts) n (vs ++ ws) (P ∧ Q) := by
  obtain ⟨e, he, hconverts⟩ := h
  obtain ⟨es, hes, hall⟩ := hs
  refine ⟨e :: es, ?_, fun args hbinds => ?_⟩
  · have hcons := DenotesAll.cons he hes
    rw [List.range'_append_1] at hcons
    rwa [List.length_append]
  · obtain ⟨hvs, hws⟩ := Binds.append.mp hbinds
    rw [List.forall_mem_cons, hconverts args hvs, hall args hws]

/-- The casts of a group are those of its members. -/
theorem converts_flatMap {args : Nat → V} {e : Expr} {es : List Expr}
    (h : e.casts = es.flatMap (·.casts)) :
    Converts accepts args e ↔ ∀ e ∈ es, Converts accepts args e := by
  unfold Converts
  rw [h]
  simp only [List.mem_flatMap, forall_exists_index, and_imp]
  constructor
  · intro hall e he c hc
    exact hall c e he hc
  · intro hall c e he hc
    exact hall e he c hc

theorem TypedTexts.and (h : TypedTexts ops accepts texts n vs P) (hne : texts ≠ []) :
    TypedText ops accepts ("(" ++ join " AND " texts ++ ")") n vs P := by
  obtain ⟨es, hes, hall⟩ := h
  unfold TypedText
  generalize List.range' n vs.length = ps at hes ⊢
  cases hes with
  | nil => exact absurd rfl hne
  | cons head tail =>
    refine ⟨_, Denotes.all (.cons head tail), fun args hbinds => ?_⟩
    rw [converts_flatMap (Expr.casts_andAll _ _), hall args hbinds]

theorem TypedTexts.or (h : TypedTexts ops accepts texts n vs P) (hne : texts ≠ []) :
    TypedText ops accepts ("(" ++ join " OR " texts ++ ")") n vs P := by
  obtain ⟨es, hes, hall⟩ := h
  unfold TypedText
  generalize List.range' n vs.length = ps at hes ⊢
  cases hes with
  | nil => exact absurd rfl hne
  | cons head tail =>
    refine ⟨_, Denotes.any (.cons head tail), fun args hbinds => ?_⟩
    rw [converts_flatMap (Expr.casts_orAll _ _), hall args hbinds]

/-- The text of a single condition, with its casts. -/
theorem LeafText.typed {col : ColumnRef} {m : (String → V) → Truth} {p : Predicate}
    (h : LeafText ops text col n vs m p)
    (hcasts : ∀ args, Binds ops args n vs → ((∀ c ∈ p.casts, accepts c.2 (args c.1)) ↔ P)) :
    TypedText ops accepts text n vs P := by
  refine ⟨.pred p, ?_, hcasts⟩
  rw [← h.params, h.text_eq]
  exact Denotes.pred p h.listed

/-! ### Leaves -/

variable (accepts) in
/-- The casts of several parameters. -/
theorem accepts_params {args : Nat → V} (cast : Option TypeName) (hbinds : Binds ops args n vs) :
    (∀ c ∈ ((List.range' n vs.length).map fun k => Operand.param k cast).flatMap (·.casts),
      accepts c.2 (args c.1)) ↔ Castable ops accepts cast vs := by
  unfold Castable
  cases cast with
  | none => simp [Operand.casts]
  | some t =>
    induction vs generalizing n with
    | nil => simp
    | cons v vs ih =>
      obtain ⟨hv, hvs⟩ := hbinds
      have hrest := ih hvs
      simp only [Option.mem_def, Option.some_inj, forall_eq'] at hrest ⊢
      rw [List.length_cons, List.range'_succ, List.map_cons, List.flatMap_cons,
        List.forall_mem_append, List.forall_mem_cons, hrest, ← hv]
      simp [Operand.casts]

theorem accepts_param {args : Nat → V} {v : String} (cast : Option TypeName)
    (h : args n = ops.text v) :
    (∀ c ∈ (Operand.param n cast).casts, accepts c.2 (args c.1)) ↔ Castable ops accepts cast [v] := by
  have hbinds : Binds ops args n [v] := ⟨h, trivial⟩
  have hparams := accepts_params accepts cast hbinds
  simpa using hparams

/-- The operators on the text of a column are for fields without a cast. -/
theorem cast_of_isLike {op : RsqlOp} {ty : FieldType} (h : opValidForType op ty = true)
    (hlike : op.isLike = true) : ty.cast = none := by
  cases ty <;> cases op <;>
    first
      | rfl
      | exact absurd hlike Bool.false_ne_true
      | exact absurd h Bool.false_ne_true

variable {fields : FieldMap} {b c : Builder} {field : String} {op : RsqlOp} {values : List String}

/-- **What a leaf is turned into** converts when its values are texts of the type of the field. -/
theorem buildLeaf_converts (hop : op.Admits values.length)
    (h : buildLeaf fields b field op values = .ok (text, c)) :
    ∃ vs, c = ⟨b.params ++ vs, b.next + vs.length⟩ ∧ TypedText ops accepts text b.next vs
      (∀ spec, lookup fields field = .ok spec → Castable ops accepts spec.ty.cast values) := by
  obtain ⟨spec, hspec, h⟩ := bind_eq_ok.mp h
  have hfield : (∀ spec', lookup fields field = .ok spec' →
      Castable ops accepts spec'.ty.cast values) ↔ Castable ops accepts spec.ty.cast values := by
    rw [hspec]
    constructor
    · intro hall
      exact hall spec rfl
    · rintro hcast _ ⟨⟩
      exact hcast
  rw [propext hfield]
  split at h
  · cases h
  rename_i hvalid
  rw [Bool.not_eq_true, Bool.not_eq_false'] at hvalid
  -- The operators come in three shapes: a comparison, a pattern (of a text column, not cast) and a list.
  have hcompare : ∀ o : CompareOp, values.length = 1 →
      Except.ok (spec.column.text ++ " " ++ o.text ++ " " ++
        (b.ph (firstValue values) spec.ty.cast).1, (b.ph (firstValue values) spec.ty.cast).2) =
        (Except.ok (text, c) : Except AppError _) →
      ∃ vs, c = ⟨b.params ++ vs, b.next + vs.length⟩ ∧ TypedText ops accepts text b.next vs
        (Castable ops accepts spec.ty.cast values) := by
    intro o hlen heq
    obtain ⟨v, rfl⟩ := List.length_eq_one_iff.mp hlen
    have htext := leafText_compare ops b spec.column spec.ty.cast o v
    change Except.ok (_ ++ (b.ph v spec.ty.cast).1, (b.ph v spec.ty.cast).2) = _ at heq
    rw [ph_text] at heq htext
    cases heq
    refine ⟨[v], rfl, htext.typed fun args hbinds => ?_⟩
    exact accepts_param spec.ty.cast hbinds.1
  have hlike : ∀ (ci : Bool) (v : String), op.isLike = true →
      Except.ok (spec.column.text ++ (if ci then " ILIKE " else " LIKE ") ++ (b.ph v none).1,
        (b.ph v none).2) = (Except.ok (text, c) : Except AppError _) →
      ∃ vs, c = ⟨b.params ++ vs, b.next + vs.length⟩ ∧ TypedText ops accepts text b.next vs
        (Castable ops accepts spec.ty.cast values) := by
    intro ci v hisLike heq
    have htext := leafText_like ops b spec.column ci v
    rw [ph_text] at heq htext
    cases heq
    refine ⟨[v], rfl, htext.typed fun args hbinds => ?_⟩
    rw [cast_of_isLike hvalid hisLike]
    simp [Predicate.casts, Operand.casts, Castable]
  have hlist : ∀ negated : Bool, values ≠ [] →
      Except.ok (spec.column.text ++ " " ++ (if negated then "NOT IN" else "IN") ++ " (" ++
        join ", " (b.phs spec.ty.cast values).1 ++ ")", (b.phs spec.ty.cast values).2) =
        (Except.ok (text, c) : Except AppError _) →
      ∃ vs, c = ⟨b.params ++ vs, b.next + vs.length⟩ ∧ TypedText ops accepts text b.next vs
        (Castable ops accepts spec.ty.cast values) := by
    intro negated hne heq
    have htext := leafText_inList ops b spec.column spec.ty.cast negated hne
    rw [phs_eq] at heq htext
    cases heq
    refine ⟨values, rfl, htext.typed fun args hbinds => ?_⟩
    exact accepts_params accepts spec.ty.cast hbinds
  -- `null` and `between` have a shape of their own.
  cases op with
  | null isNull =>
    obtain rfl : values = [] := List.length_eq_zero_iff.mp hop
    cases h
    refine ⟨[], by simp, (leafText_isNull ops spec.column isNull b.next).typed fun args _ => ?_⟩
    simp [Predicate.casts, Operand.casts, Castable]
  | eq => exact hcompare .eq hop h
  | neq => exact hcompare .neq hop h
  | gt => exact hcompare .gt hop h
  | ge => exact hcompare .ge hop h
  | lt => exact hcompare .lt hop h
  | le => exact hcompare .le hop h
  | like => exact hlike false _ rfl h
  | ilike => exact hlike true _ rfl h
  | contains => exact hlike true _ rfl h
  | starts => exact hlike true _ rfl h
  | ends => exact hlike true _ rfl h
  | inList =>
    dsimp only at h
    split at h
    · cases h
    · next hne => exact hlist false hne h
  | out =>
    dsimp only at h
    split at h
    · cases h
    · next hne => exact hlist true hne h
  | between =>
    dsimp only at h
    split at h
    · next v v' _ =>
      have htext := leafText_between ops b spec.column spec.ty.cast v v'
      rw [ph_text, ph_text] at h htext
      cases h
      refine ⟨[v, v'], by simp, htext.typed fun args hbinds => ?_⟩
      have hparams := accepts_params accepts spec.ty.cast hbinds
      have hrange : List.range' b.next [v, v'].length = [b.next, b.next + 1] := rfl
      rw [hrange] at hparams
      simp only [List.map_cons, List.map_nil, List.flatMap_cons, List.flatMap_nil,
        List.append_nil] at hparams
      exact hparams
    · cases h

/-! ### Trees -/

theorem wellTyped_and {cs : List FilterNode} :
    (FilterNode.and cs).WellTyped ops accepts fields ↔ ∀ c ∈ cs, c.WellTyped ops accepts fields := by
  constructor
  · intro h
    cases h with
    | and hcs => exact hcs
  · exact .and

theorem wellTyped_or {cs : List FilterNode} :
    (FilterNode.or cs).WellTyped ops accepts fields ↔ ∀ c ∈ cs, c.WellTyped ops accepts fields := by
  constructor
  · intro h
    cases h with
    | or hcs => exact hcs
  · exact .or

theorem wellTyped_leaf :
    (FilterNode.leaf field op values).WellTyped ops accepts fields ↔
      ∀ spec, lookup fields field = .ok spec → Castable ops accepts spec.ty.cast values := by
  constructor
  · intro h
    cases h with
    | leaf hvalues => exact hvalues
  · intro h
    exact FilterNode.Leaves.leaf h

variable (ops accepts fields) in
/-- The text of a node converts when the node is well typed. -/
def NodeConverts (node : FilterNode) : Prop :=
  ∀ (b c : Builder) (text : String), buildNode fields b node = .ok (text, c) →
    ∃ vs, c = ⟨b.params ++ vs, b.next + vs.length⟩ ∧
      TypedText ops accepts text b.next vs (node.WellTyped ops accepts fields)

/-- The children of a group, from left to right. -/
theorem buildNodes_converts {cs : List FilterNode}
    (hcs : ∀ node ∈ cs, NodeConverts ops accepts fields node)
    (h : buildNodes fields b cs = .ok (texts, c)) :
    texts.length = cs.length ∧ ∃ vs, c = ⟨b.params ++ vs, b.next + vs.length⟩ ∧
      TypedTexts ops accepts texts b.next vs (∀ node ∈ cs, node.WellTyped ops accepts fields) := by
  induction cs generalizing b texts with
  | nil =>
    rw [buildNodes] at h
    cases h
    exact ⟨rfl, [], by simp, [], .nil, fun args _ => by simp⟩
  | cons node cs ih =>
    obtain ⟨text, b', rest, hnode, hrest, rfl⟩ := buildNodes_cons fields h
    obtain ⟨vs, rfl, htyped⟩ := hcs node List.mem_cons_self b b' text hnode
    obtain ⟨hlen, ws, rfl, hall⟩ := ih (fun n hn => hcs n (List.mem_cons_of_mem _ hn)) hrest
    refine ⟨congrArg Nat.succ hlen, vs ++ ws, ?_, ?_⟩
    · rw [List.append_assoc, List.length_append, Nat.add_assoc]
    · rw [propext (List.forall_mem_cons (p := fun node : FilterNode =>
        node.WellTyped ops accepts fields))]
      exact TypedTexts.cons htyped hall

/-- **What a tree is turned into** converts exactly when the tree is well typed. -/
theorem buildNode_converts {node : FilterNode} (hnode : node.WellFormed) :
    NodeConverts ops accepts fields node := by
  induction hnode with
  | @and cs hlen hcs ih =>
    intro b c text h
    rw [buildNode] at h
    obtain ⟨⟨texts, c'⟩, hchildren, h⟩ := bind_eq_ok.mp h
    cases h
    obtain ⟨htexts, vs, hvs, hall⟩ := buildNodes_converts ih hchildren
    have hne : texts ≠ [] := by
      rintro rfl
      rw [← htexts] at hlen
      cases hlen
    rw [propext wellTyped_and]
    exact ⟨vs, hvs, hall.and hne⟩
  | @or cs hlen hcs ih =>
    intro b c text h
    rw [buildNode] at h
    obtain ⟨⟨texts, c'⟩, hchildren, h⟩ := bind_eq_ok.mp h
    cases h
    obtain ⟨htexts, vs, hvs, hall⟩ := buildNodes_converts ih hchildren
    have hne : texts ≠ [] := by
      rintro rfl
      rw [← htexts] at hlen
      cases hlen
    rw [propext wellTyped_or]
    exact ⟨vs, hvs, hall.or hne⟩
  | leaf hop =>
    intro b c text h
    rw [buildNode] at h
    rw [propext wellTyped_leaf]
    exact buildLeaf_converts hop h

/-! ### Queries -/

theorem lookup_error {e : AppError} (h : lookup fields field = .error e) : ∃ s, e = .validation s := by
  unfold lookup at h
  split at h
  · cases h
    exact ⟨_, rfl⟩
  · split at h
    · cases h
      exact ⟨_, rfl⟩
    · cases h

theorem bind_eq_error {ε α β : Type} {x : Except ε α} {f : α → Except ε β} {e : ε}
    (h : x >>= f = .error e) : x = .error e ∨ ∃ a, x = .ok a ∧ f a = .error e := by
  cases x with
  | error e' =>
    cases h
    exact .inl rfl
  | ok a => exact .inr ⟨a, rfl, h⟩

theorem buildLeaf_error {e : AppError} (h : buildLeaf fields b field op values = .error e) :
    ∃ s, e = .validation s := by
  rcases bind_eq_error h with hlookup | ⟨spec, -, h⟩
  · exact lookup_error hlookup
  · split at h
    · cases h
      exact ⟨_, rfl⟩
    · cases op <;> dsimp only at h <;> first
        | cases h
        | (split at h <;> cases h; exact ⟨_, rfl⟩)

theorem buildNodes_error {cs : List FilterNode}
    (hcs : ∀ node ∈ cs, ∀ b e, buildNode fields b node = .error e → ∃ s, e = .validation s)
    {e : AppError} (h : buildNodes fields b cs = .error e) : ∃ s, e = .validation s := by
  induction cs generalizing b with
  | nil =>
    rw [buildNodes] at h
    cases h
  | cons node cs ih =>
    rw [buildNodes] at h
    rcases bind_eq_error h with hnode | ⟨r, -, h⟩
    · exact hcs node List.mem_cons_self _ _ hnode
    · rcases bind_eq_error h with hrest | ⟨rs, -, h⟩
      · exact ih (fun n hn => hcs n (List.mem_cons_of_mem _ hn)) hrest
      · cases h

theorem buildNode_error {node : FilterNode} {e : AppError}
    (h : buildNode fields b node = .error e) : ∃ s, e = .validation s := by
  induction node generalizing b e with
  | and cs ih =>
    rw [buildNode] at h
    rcases bind_eq_error h with hchildren | ⟨r, -, h⟩
    · exact buildNodes_error (fun node hnode b e => ih node hnode) hchildren
    · cases h
  | or cs ih =>
    rw [buildNode] at h
    rcases bind_eq_error h with hchildren | ⟨r, -, h⟩
    · exact buildNodes_error (fun node hnode b e => ih node hnode) hchildren
    · cases h
  | leaf field op values =>
    rw [buildNode] at h
    exact buildLeaf_error h

theorem orderPart_error {spec : SortSpec} {e : AppError} (h : orderPart fields spec = .error e) :
    ∃ s, e = .validation s := by
  unfold orderPart at h
  split at h
  · cases h
    exact ⟨_, rfl⟩
  · split at h
    · cases h
      exact ⟨_, rfl⟩
    · cases h

theorem buildOrder_error {sort : List SortSpec} {e : AppError}
    (h : buildOrder fields sort = .error e) : ∃ s, e = .validation s := by
  have hparts : ∀ (sort : List SortSpec) e, sort.mapM (orderPart fields) = .error e →
      ∃ s, e = .validation s := by
    intro sort e hmap
    induction sort generalizing e with
    | nil => cases hmap
    | cons spec sort ih =>
      rw [List.mapM_cons] at hmap
      rcases bind_eq_error hmap with hspec | ⟨part, -, hmap⟩
      · exact orderPart_error hspec
      · rcases bind_eq_error hmap with hrest | ⟨rest, -, hmap⟩
        · exact ih e hrest
        · cases hmap
  rcases bind_eq_error h with hmap | ⟨parts, -, h⟩
  · exact hparts sort e hmap
  · cases h

/-- **A rejected query is an invalid filter.** -/
theorem parse_build_error (toLowercase : String → String) {input : String} {sort : List SortSpec}
    {start : Nat} {e : AppError}
    (h : (do let node ← parseRsql toLowercase input; build fields (some node) sort start) =
      .error e) : ∃ s, e = .validation s := by
  rcases bind_eq_error h with hparse | ⟨node, -, h⟩
  · unfold parseRsql at hparse
    dsimp only at hparse
    split at hparse
    · cases hparse
      exact ⟨_, rfl⟩
    · split at hparse
      · cases hparse
        exact ⟨_, rfl⟩
      · split at hparse
        · cases hparse
        · cases hparse
          exact ⟨_, rfl⟩
  · rcases bind_eq_error h with hwhere | ⟨r, -, h⟩
    · exact buildNode_error hwhere
    · rcases bind_eq_error h with horder | ⟨orderSql, -, h⟩
      · exact buildOrder_error horder
      · cases h

/-- **What is built** converts exactly when the tree is well typed. -/
theorem build_typed (toLowercase : String → String) {input : String} {node : FilterNode}
    {sort : List SortSpec} {start : Nat} {built : BuiltQuery}
    (hparse : parseRsql toLowercase input = .ok node)
    (hbuild : build fields (some node) sort start = .ok built) :
    ∃ e, condition built.whereSql = some e ∧ ∀ args, Binds ops args start built.params →
      (Converts accepts args e ↔ node.WellTyped ops accepts fields) := by
  rw [build] at hbuild
  obtain ⟨⟨whereSql, b⟩, hwhere, hbuild⟩ := bind_eq_ok.mp hbuild
  obtain ⟨orderSql, -, hbuild⟩ := bind_eq_ok.mp hbuild
  cases hbuild
  obtain ⟨vs, rfl, e, hdenotes, hconverts⟩ :=
    buildNode_converts (parseRsql_wellFormed toLowercase hparse) _ _ _ hwhere
  have hcondition := condition_join (.cons hdenotes .nil)
  refine ⟨e, hcondition, fun args hbinds => ?_⟩
  exact hconverts args hbinds

variable (ops accepts fields) in
/-- **A filter that is accepted is executed without a conversion error** exactly when every value of
a typed field is a text of its type; one that is not accepted is an invalid filter. -/
theorem build_converts_iff (toLowercase : String → String) (input : String) (sort : List SortSpec)
    (start : Nat) :
    (∀ node built, parseRsql toLowercase input = .ok node →
      build fields (some node) sort start = .ok built →
        ∃ e, condition built.whereSql = some e ∧ ∀ args, Binds ops args start built.params →
          (Converts accepts args e ↔ node.WellTyped ops accepts fields)) ∧
    ∀ e, (do let node ← parseRsql toLowercase input; build fields (some node) sort start) =
      .error e → ∃ s, e = .validation s :=
  ⟨fun _ _ hparse hbuild => build_typed toLowercase hparse hbuild,
    fun _ h => parse_build_error toLowercase h⟩

end Typing

/-! ### The casts of Postgres -/

/-- The texts of truth values: `true`, `false`, `yes`, `no` and their beginnings, `on`, `off`, `1` and
`0`, in either case and between blanks. -/
def isBooleanText (s : String) : Bool :=
  ["t", "tr", "tru", "true", "f", "fa", "fal", "fals", "false", "y", "ye", "yes", "n", "no", "on",
    "of", "off", "1", "0"].contains (String.ofList ((trim s).toList.map Char.toLower))

/-- What a cast to a truth value accepts; the other casts are not looked at. -/
def acceptsBoolean (t : TypeName) (v : Option String) : Prop :=
  t = .boolean → ∀ s ∈ v, isBooleanText s = true

/-- A filter on the second factor of a member, as it is built. -/
theorem mfaEnabled_built (v : String)
    (hrun : ((parseRsql id ("mfaEnabled==" ++ v)).bind fun node =>
      (build userFilterFields (some node) [] 2).map fun built =>
        (built.whereSql, built.params)).toOption = some ("i.mfa_enabled = $2::boolean", [v])) :
    ∃ node built, parseRsql id ("mfaEnabled==" ++ v) = .ok node ∧
      build userFilterFields (some node) [] 2 = .ok built ∧
        built.whereSql = "i.mfa_enabled = $2::boolean" ∧ built.params = [v] := by
  cases hparse : parseRsql id ("mfaEnabled==" ++ v) with
  | error e =>
    rw [hparse] at hrun
    cases hrun
  | ok node =>
    rw [hparse] at hrun
    change ((build userFilterFields (some node) [] 2).map _).toOption = _ at hrun
    cases hbuild : build userFilterFields (some node) [] 2 with
    | error e =>
      rw [hbuild] at hrun
      cases hrun
    | ok built =>
      rw [hbuild] at hrun
      obtain ⟨hwhere, hparams⟩ := Prod.mk.inj (Option.some.inj hrun)
      exact ⟨node, built, rfl, hbuild, hwhere, hparams⟩

theorem mfaEnabled_casts :
    (condition "i.mfa_enabled = $2::boolean").map (·.casts) = some [(2, .boolean)] := by
  decide +kernel

/-- `mfaEnabled==True` converts. -/
theorem build_converts_true : ∃ node built, parseRsql id ("mfaEnabled==" ++ "True") = .ok node ∧
    build userFilterFields (some node) [] 2 = .ok built ∧
      ∃ e, condition built.whereSql = some e ∧
        ∀ args, Binds textOperators args 2 built.params → (Converts acceptsBoolean args e ↔
          node.WellTyped textOperators acceptsBoolean userFilterFields) := by
  obtain ⟨node, built, hparse, hbuild, -⟩ := mfaEnabled_built "True" (by decide +kernel)
  exact ⟨node, built, hparse, hbuild,
    (build_converts_iff textOperators acceptsBoolean userFilterFields id _ _ _).1 _ _ hparse hbuild⟩

/-- **`mfaEnabled==maybe` is built, and does not convert.** -/
theorem ill_typed_built : ¬ ∀ {V : Type} (ops : Operators V) (accepts : TypeName → V → Prop)
    (toLowercase : String → String) (fields : FieldMap) (input : String) (sort : List SortSpec)
    (start : Nat) (node : FilterNode) (built : BuiltQuery),
      parseRsql toLowercase input = .ok node → build fields (some node) sort start = .ok built →
        ∃ e, condition built.whereSql = some e ∧
          ∀ args, Binds ops args start built.params → Converts accepts args e := by
  intro h
  obtain ⟨node, built, hparse, hbuild, hwhere, hparams⟩ :=
    mfaEnabled_built "maybe" (by decide +kernel)
  obtain ⟨e, he, hconverts⟩ := h textOperators acceptsBoolean _ _ _ _ _ _ _ hparse hbuild
  have hargs := hconverts (fun _ => some "maybe") (by rw [hparams]; exact ⟨rfl, trivial⟩)
  have hcasts := mfaEnabled_casts
  rw [hwhere] at he
  rw [he, Option.map_some, Option.some_inj] at hcasts
  have haccepted := hargs (2, .boolean) (by rw [hcasts]; exact List.mem_singleton_self _) rfl
    "maybe" rfl
  exact absurd haccepted (by decide +kernel)

end Authrs.Query
