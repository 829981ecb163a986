import Authrs.Query.Meaning
import Authrs.SqlText.Names

/-!
# No value reaches the SQL

The texts that `build` writes depend on the shape of a tree only, and every column they name is
the column of a field of the allowlist that is not sensitive.

## Main definitions

* `FilterNode.shape`: a tree with its values blanked
* `BuiltQuery.sql`: the texts of a query, without its parameters

## Main results

* `buildNode_shape`: the text of a tree is that of its shape
* `build_noninterference`: trees of the same shape have the same texts, which name only columns
  of the allowlist
-/

namespace Authrs.Query

open SqlText (Names Reads Columns ColumnRef TypeName)

/-! ### Shapes -/

/-- The tree with its values blanked: the structure, the fields, the operators and the number of
values of each leaf. -/
def FilterNode.shape : FilterNode → FilterNode
  | .and cs => .and (cs.map shape)
  | .or cs => .or (cs.map shape)
  | .leaf field op values => .leaf field op (values.map fun _ => "")

/-- The texts of a query. -/
def BuiltQuery.sql (q : BuiltQuery) : String × String := (q.whereSql, q.orderSql)

/-- What a step of the traversal writes, and the next placeholder. -/
def written {α : Type} (r : Except AppError (α × Builder)) : Except AppError (α × Nat) :=
  r.map fun p => (p.1, p.2.next)

/-- Steps that write the same go on alike, when what follows looks at the next placeholder only. -/
theorem written_bind {α β : Type} {x y : Except AppError (α × Builder)}
    {f g : α × Builder → Except AppError (β × Builder)} (h : written x = written y)
    (hfg : ∀ a c c', c.next = c'.next → written (f (a, c)) = written (g (a, c'))) :
    written (x >>= f) = written (y >>= g) := by
  cases x with
  | error e =>
    cases y with
    | error e' =>
      cases h
      rfl
    | ok q => cases h
  | ok p =>
    cases y with
    | error e' => cases h
    | ok q =>
      obtain ⟨a, c⟩ := p
      obtain ⟨a', c'⟩ := q
      obtain ⟨rfl, hnext⟩ : a = a' ∧ c.next = c'.next := by simpa [written, Except.map] using h
      exact hfg a c c' hnext

section Shape

variable (fields : FieldMap) {b b' : Builder}

theorem ph_next (hnext : b.next = b'.next) (v v' : String) (cast : Option TypeName) :
    (b.ph v cast).1 = (b'.ph v' cast).1 ∧ (b.ph v cast).2.next = (b'.ph v' cast).2.next := by
  rw [ph_text, ph_text, hnext]
  exact ⟨rfl, rfl⟩

theorem phs_next (hnext : b.next = b'.next) {vs vs' : List String}
    (hlen : vs.length = vs'.length) (cast : Option TypeName) :
    (b.phs cast vs).1 = (b'.phs cast vs').1 ∧
      (b.phs cast vs).2.next = (b'.phs cast vs').2.next := by
  rw [phs_eq, phs_eq, hnext, hlen]
  exact ⟨rfl, rfl⟩

/-- A leaf of one value. -/
theorem written_ph (hnext : b.next = b'.next) (cast : Option TypeName) (v v' : String)
    (f : String → String) :
    written (.ok (f (b.ph v cast).1, (b.ph v cast).2)) =
      written (.ok (f (b'.ph v' cast).1, (b'.ph v' cast).2)) := by
  obtain ⟨htext, hph⟩ := ph_next hnext v v' cast
  simp only [written, Except.map, htext, hph]

/-- A leaf of a list of values, of which there must be one. -/
theorem written_phs (hnext : b.next = b'.next) {vs vs' : List String} (hlen : vs.length = vs'.length)
    (cast : Option TypeName) (f : List String → String) (e : AppError) :
    written (if vs = [] then .error e else .ok (f (b.phs cast vs).1, (b.phs cast vs).2)) =
      written (if vs' = [] then .error e
        else .ok (f (b'.phs cast vs').1, (b'.phs cast vs').2)) := by
  have hnil : vs = [] ↔ vs' = [] := by
    rw [← List.length_eq_zero_iff, ← List.length_eq_zero_iff, hlen]
  obtain ⟨htexts, hphs⟩ := phs_next hnext hlen cast
  by_cases hvs : vs = []
  · rw [if_pos hvs, if_pos (hnil.mp hvs)]
  · rw [if_neg hvs, if_neg (hnil.not.mp hvs)]
    simp only [written, Except.map, htexts, hphs]

/-- The text of a leaf does not depend on its values. -/
theorem buildLeaf_shape (hnext : b.next = b'.next) (field : String) (op : RsqlOp)
    {vs vs' : List String} (hlen : vs.length = vs'.length) :
    written (buildLeaf fields b field op vs) = written (buildLeaf fields b' field op vs') := by
  unfold buildLeaf
  cases lookup fields field with
  | error e => rfl
  | ok spec =>
    change written (if !opValidForType op spec.ty then _ else _) =
      written (if !opValidForType op spec.ty then _ else _)
    split
    · rfl
    cases op with
    | null isNull => simp only [written, Except.map, hnext]
    | eq => exact written_ph hnext _ _ _ (spec.column.text ++ " " ++ "=" ++ " " ++ ·)
    | neq => exact written_ph hnext _ _ _ (spec.column.text ++ " " ++ "!=" ++ " " ++ ·)
    | gt => exact written_ph hnext _ _ _ (spec.column.text ++ " " ++ ">" ++ " " ++ ·)
    | ge => exact written_ph hnext _ _ _ (spec.column.text ++ " " ++ ">=" ++ " " ++ ·)
    | lt => exact written_ph hnext _ _ _ (spec.column.text ++ " " ++ "<" ++ " " ++ ·)
    | le => exact written_ph hnext _ _ _ (spec.column.text ++ " " ++ "<=" ++ " " ++ ·)
    | like => exact written_ph hnext _ _ _ (spec.column.text ++ " LIKE " ++ ·)
    | ilike | contains | starts | ends =>
      exact written_ph hnext _ _ _ (spec.column.text ++ " ILIKE " ++ ·)
    | inList =>
      exact written_phs hnext hlen _
        (spec.column.text ++ " " ++ "IN" ++ " (" ++ SqlText.join ", " · ++ ")") _
    | out =>
      exact written_phs hnext hlen _
        (spec.column.text ++ " " ++ "NOT IN" ++ " (" ++ SqlText.join ", " · ++ ")") _
    | between =>
      match vs, vs', hlen with
      | [], [], _ => rfl
      | [_], [_], _ => rfl
      | [v, w], [v', w'], _ =>
        obtain ⟨hfirst, hnext'⟩ := ph_next hnext v v' spec.ty.cast
        obtain ⟨hsecond, hnext''⟩ := ph_next hnext' w w' spec.ty.cast
        change Except.ok (spec.column.text ++ " BETWEEN " ++ (b.ph v spec.ty.cast).1 ++ " AND " ++
            ((b.ph v spec.ty.cast).2.ph w spec.ty.cast).1,
          ((b.ph v spec.ty.cast).2.ph w spec.ty.cast).2.next) = _
        rw [hfirst, hsecond, hnext'']
        rfl
      | v :: w :: x :: vs, v' :: w' :: x' :: vs', hlen =>
        change Except.error (AppError.validation ("=between= requires exactly 2 values for field '"
          ++ field ++ "', got " ++ toString (v :: w :: x :: vs).length)) = _
        rw [hlen]
        rfl

/-- A tree is written as its shape. -/
def Oblivious (node : FilterNode) : Prop :=
  ∀ b b' : Builder, b.next = b'.next →
    written (buildNode fields b node) = written (buildNode fields b' node.shape)

theorem buildNodes_shape {cs : List FilterNode} (hcs : ∀ node ∈ cs, Oblivious fields node)
    (hnext : b.next = b'.next) :
    written (buildNodes fields b cs) =
      written (buildNodes fields b' (cs.map FilterNode.shape)) := by
  induction cs generalizing b b' with
  | nil =>
    change Except.ok (([] : List String), b.next) = Except.ok ([], b'.next)
    rw [hnext]
  | cons node cs ih =>
    rw [List.map_cons, buildNodes, buildNodes]
    refine written_bind (hcs node List.mem_cons_self b b' hnext) fun text c c' hc => ?_
    refine written_bind (ih (fun n hn => hcs n (List.mem_cons_of_mem _ hn)) hc) ?_
    intro texts d d' hd
    exact congrArg (fun n => Except.ok (text :: texts, n)) hd

/-- **The text of a tree is that of its shape.** -/
theorem buildNode_shape (node : FilterNode) : Oblivious fields node := by
  induction node with
  | and cs ih =>
    intro b b' hnext
    rw [FilterNode.shape, buildNode, buildNode]
    refine written_bind (buildNodes_shape fields ih hnext) fun texts c c' hc => ?_
    exact congrArg (fun n => Except.ok ("(" ++ SqlText.join " AND " texts ++ ")", n)) hc
  | or cs ih =>
    intro b b' hnext
    rw [FilterNode.shape, buildNode, buildNode]
    refine written_bind (buildNodes_shape fields ih hnext) fun texts c c' hc => ?_
    exact congrArg (fun n => Except.ok ("(" ++ SqlText.join " OR " texts ++ ")", n)) hc
  | leaf field op values =>
    intro b b' hnext
    rw [FilterNode.shape, buildNode, buildNode]
    exact buildLeaf_shape fields hnext field op (List.length_map _).symm

theorem build_sql (filter : Option FilterNode) (sort : List SortSpec) (start : Nat) :
    (build fields filter sort start).map BuiltQuery.sql =
      (written (buildWhere fields filter start)).bind fun p =>
        (buildOrder fields sort).map fun orderSql => (p.1, orderSql) := by
  rw [build]
  cases buildWhere fields filter start with
  | error e => rfl
  | ok p => cases buildOrder fields sort <;> rfl

theorem build_shape (node : FilterNode) (sort : List SortSpec) (start : Nat) :
    (build fields (some node) sort start).map BuiltQuery.sql =
      (build fields (some node.shape) sort start).map BuiltQuery.sql := by
  have hwhere : written (buildWhere fields (some node) start) =
      written (buildWhere fields (some node.shape) start) :=
    buildNode_shape fields node ⟨[], start⟩ ⟨[], start⟩ rfl
  rw [build_sql, build_sql, hwhere]

end Shape

/-! ### Columns -/

section Allowed

variable (fields : FieldMap)

/-- The column of a field that is not sensitive. -/
def Allowed (c : String) : Prop := ∃ spec ∈ fields, spec.sensitive = false ∧ spec.column.text = c

theorem lookup_allowed {field : String} {spec : FieldSpec} (h : lookup fields field = .ok spec) :
    Allowed fields spec.column.text := by
  unfold lookup at h
  split at h
  · cases h
  · next spec' hfind =>
    split at h
    · cases h
    · next hsensitive =>
      cases h
      exact ⟨spec, List.mem_of_find?_eq_some hfind, Bool.not_eq_true _ ▸ hsensitive, rfl⟩

theorem buildNodes_names {cs : List FilterNode}
    (hcs : ∀ node ∈ cs, ∀ b c text, buildNode fields b node = .ok (text, c) →
      Names text (Allowed fields))
    {b c : Builder} {texts : List String} (h : buildNodes fields b cs = .ok (texts, c)) :
    ∀ text ∈ texts, Names text (Allowed fields) := by
  induction cs generalizing b texts with
  | nil =>
    rw [buildNodes] at h
    cases h
    simp
  | cons node cs ih =>
    obtain ⟨text, b', rest, hnode, hrest, rfl⟩ := buildNodes_cons fields h
    rw [List.forall_mem_cons]
    exact ⟨hcs node List.mem_cons_self b b' text hnode,
      ih (fun n hn => hcs n (List.mem_cons_of_mem _ hn)) hrest⟩

/-- The text of a tree names only allowed columns. -/
theorem buildNode_names (node : FilterNode) : ∀ b c text,
    buildNode fields b node = .ok (text, c) → Names text (Allowed fields) := by
  induction node with
  | and cs ih =>
    intro b c text h
    rw [buildNode] at h
    obtain ⟨⟨texts, c'⟩, hchildren, h⟩ := bind_eq_ok.mp h
    cases h
    exact (Names.join Reads.and (.keyword (by decide +kernel))
      (buildNodes_names fields ih hchildren)).group
  | or cs ih =>
    intro b c text h
    rw [buildNode] at h
    obtain ⟨⟨texts, c'⟩, hchildren, h⟩ := bind_eq_ok.mp h
    cases h
    exact (Names.join Reads.or (.keyword (by decide +kernel))
      (buildNodes_names fields ih hchildren)).group
  | leaf field op values =>
    intro b c text h
    rw [buildNode] at h
    -- which columns a text names does not depend on what the operators do
    let ops : SqlText.Operators Unit :=
      ⟨fun _ => false, fun _ _ _ => .no, fun _ _ _ => .no, fun _ _ => (), fun _ => ()⟩
    obtain ⟨spec, vs, p, hspec, -, htext⟩ := buildLeaf_text ops fields h
    rw [htext.text_eq]
    refine Names.pred ?_
    rw [htext.columns, List.forall_mem_singleton]
    exact lookup_allowed fields hspec

theorem orderPart_names {s : SortSpec} {part : String} (h : orderPart fields s = .ok part) :
    Names part (Allowed fields) := by
  unfold orderPart at h
  split at h
  · cases h
  · next spec hfind =>
    split at h
    · cases h
    · next hsensitive =>
      cases h
      have hallowed : Allowed fields spec.column.text :=
        ⟨spec, List.mem_of_find?_eq_some hfind, Bool.not_eq_true _ ▸ hsensitive, rfl⟩
      refine (Names.column hallowed).space ?_
      cases s.desc <;> exact .keyword (by decide) (by decide +kernel)

theorem mapM_orderPart_names {sort : List SortSpec} {parts : List String}
    (h : sort.mapM (orderPart fields) = .ok parts) :
    ∀ part ∈ parts, Names part (Allowed fields) := by
  induction sort generalizing parts with
  | nil =>
    cases h
    simp
  | cons s sort ih =>
    rw [List.mapM_cons] at h
    obtain ⟨part, hpart, h⟩ := bind_eq_ok.mp h
    obtain ⟨rest, hrest, h⟩ := bind_eq_ok.mp h
    cases h
    rw [List.forall_mem_cons]
    exact ⟨orderPart_names fields hpart, ih hrest⟩

theorem buildOrder_names {sort : List SortSpec} {orderSql : String}
    (h : buildOrder fields sort = .ok orderSql) : Names orderSql (Allowed fields) := by
  unfold buildOrder at h
  obtain ⟨parts, hparts, h⟩ := bind_eq_ok.mp h
  cases h
  split
  · exact .empty
  · have hkeywords : Names ("ORDER" ++ " " ++ "BY") (Allowed fields) :=
      (Names.keyword (by decide) (by decide +kernel)).space
        (.keyword (by decide) (by decide +kernel))
    have hparts' := Names.join Reads.comma (fun rest => rfl) (mapM_orderPart_names fields hparts)
    have hlead : " " ++ ("ORDER" ++ " " ++ "BY" ++ " ") = " ORDER BY " := by decide +kernel
    rw [← hlead, String.append_assoc]
    exact (hkeywords.space hparts').lead

end Allowed

/-- **No value reaches the SQL.** Trees of the same shape have the same texts, or fail alike; and
every column in the texts of a query is the column of a field that is not sensitive. -/
theorem build_noninterference (fields : FieldMap) {node node' : FilterNode}
    (hshape : node.shape = node'.shape) (sort : List SortSpec) (start : Nat) :
    (build fields (some node) sort start).map BuiltQuery.sql =
        (build fields (some node') sort start).map BuiltQuery.sql ∧
      ∀ built, build fields (some node) sort start = .ok built →
        ∃ ts us, SqlText.lex built.whereSql = some ts ∧ SqlText.lex built.orderSql = some us ∧
          ∀ c ∈ SqlText.columns ts ++ SqlText.columns us, Allowed fields c := by
  constructor
  · rw [build_shape, build_shape fields node', hshape]
  · intro built h
    unfold build at h
    obtain ⟨⟨whereSql, b⟩, hwhere, h⟩ := bind_eq_ok.mp h
    obtain ⟨orderSql, horder, h⟩ := bind_eq_ok.mp h
    cases h
    obtain ⟨ts, hts, hcolumns⟩ := (buildNode_names fields node _ _ _ hwhere).lex
    obtain ⟨us, hus, hcolumns'⟩ := (buildOrder_names fields horder).lex
    refine ⟨ts, us, hts, hus, ?_⟩
    rw [List.forall_mem_append]
    exact ⟨hcolumns, hcolumns'⟩

/-- Two filters for the status and the username of a membership. -/
theorem build_noninterference_users :
    (build userFilterFields (some (.and [.leaf "status" .eq ["active"],
        .leaf "username" .inList ["ann", "bob"]])) [⟨"createdAt", true⟩] 2).map BuiltQuery.sql =
      (build userFilterFields (some (.and [.leaf "status" .eq ["' OR 1 = 1"],
        .leaf "username" .inList ["i.password_hash", ")"]])) [⟨"createdAt", true⟩] 2).map
        BuiltQuery.sql :=
  (build_noninterference userFilterFields (by simp [FilterNode.shape]) _ 2).1

end Authrs.Query
