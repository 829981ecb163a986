import Authrs.Query.Indexed

/-!
# Printing filters

A filter tree is printed with `;` between the members of an `and`, `,` between those of an `or`,
parentheses around a member that is a group, `RsqlOp::display` for the operator and quotes around
the values. What is printed is a text of the grammar, so parsing it gives the tree back.

## Main definitions

* `FilterNode.render`: the text of a tree
* `FilterNode.Leaves`: every leaf has a property

## Main results

* `isFilter_render`: the text of a tree is derivable with the tree
* `parseRsql_render`: parsing it gives the tree back
* `parse_rsql_accepts`: the texts and the trees of `parse_rsql`, and its round trip
-/

namespace Authrs.Query

/-! ### Texts of trees -/

def quote (v : String) : List Char := '"' :: (v.toList ++ ['"'])

def renderValues : List String → List Char
  | [] => []
  | [v] => quote v
  | v :: vs => quote v ++ ',' :: renderValues vs

/-- What an operator takes. -/
def renderArguments : RsqlOp → List String → List Char
  | .null isNull, _ => quote (nullText isNull)
  | .inList, vs => '(' :: (renderValues vs ++ [')'])
  | .out, vs => '(' :: (renderValues vs ++ [')'])
  | .between, vs => '(' :: (renderValues vs ++ [')'])
  | _, vs => renderValues vs

/-- A group is put in parentheses. -/
def enclose : FilterNode → List Char → List Char
  | .leaf .., s => s
  | _, s => '(' :: (s ++ [')'])

mutual

/-- **The text of a tree.** -/
def FilterNode.render : FilterNode → List Char
  | .and cs => renderMembers ';' cs
  | .or cs => renderMembers ',' cs
  | .leaf field op values => field.toList ++ (op.display.toList ++ renderArguments op values)

/-- The members of a group, with a separator between them. -/
def renderMembers (sep : Char) : List FilterNode → List Char
  | [] => []
  | [c] => enclose c c.render
  | c :: cs => enclose c c.render ++ sep :: renderMembers sep cs

end

/-- Every leaf has a property. -/
inductive FilterNode.Leaves (P : String → List String → Prop) : FilterNode → Prop
  | and {cs : List FilterNode} (h : ∀ c ∈ cs, Leaves P c) : Leaves P (.and cs)
  | or {cs : List FilterNode} (h : ∀ c ∈ cs, Leaves P c) : Leaves P (.or cs)
  | leaf {field : String} {op : RsqlOp} {values : List String} (h : P field values) :
    Leaves P (.leaf field op values)

/-- No value has a quote in it. -/
def NoQuotes (values : List String) : Prop := ∀ v ∈ values, '"' ∉ v.toList

/-- The field can be written, and no value has a quote in it. -/
def Printable (field : String) (values : List String) : Prop :=
  IsField field.toList ∧ NoQuotes values

/-- What the texts of flags rely on: lowering leaves them as they are. -/
def LowersFlags (toLowercase : String → String) : Prop :=
  ∀ b, toLowercase (nullText b) = nullText b

/-! ### What is printed is derivable -/

section Derivable

variable {toLowercase : String → String} {t : FilterNode} {ts : List FilterNode}

theorem isValue_quote {v : String} (h : '"' ∉ v.toList) : IsValue (quote v) v := by
  have hvalue := IsValue.quoted h
  rw [String.ofList_toList] at hvalue
  exact hvalue

theorem areValues_renderValues {vs : List String} (hvs : 0 < vs.length) (h : NoQuotes vs) :
    AreValues (renderValues vs) vs := by
  induction vs with
  | nil => exact absurd hvs (Nat.lt_irrefl 0)
  | cons v vs ih =>
    have hv := isValue_quote (h v List.mem_cons_self)
    cases vs with
    | nil => exact .one hv
    | cons u us => exact .cons hv (ih (Nat.succ_pos _) fun x hx => h x (List.mem_cons_of_mem v hx))

/-- A leaf is printed as a leaf. -/
theorem isLeaf_render (hlower : LowersFlags toLowercase) {field : String} {op : RsqlOp}
    {values : List String} (hop : op.Admits values.length) (h : Printable field values) :
    IsLeaf toLowercase (FilterNode.leaf field op values).render (.leaf field op values) := by
  obtain ⟨hfield, hvalues⟩ := h
  have hscalar : ∀ op : RsqlOp, op.TakesOne → values.length = 1 →
      IsLeaf toLowercase (field.toList ++ (op.display.toList ++ renderValues values))
        (.leaf field op values) := by
    intro op htakes hlen
    obtain ⟨v, rfl⟩ := List.length_eq_one_iff.mp hlen
    have hleaf := @IsLeaf.scalar toLowercase _ _ op v hfield htakes
      (isValue_quote (hvalues v List.mem_cons_self))
    rw [String.ofList_toList] at hleaf
    exact hleaf
  have hlist : ∀ op : RsqlOp, op.TakesList → 0 < values.length →
      IsLeaf toLowercase (field.toList ++ (op.display.toList ++ '(' :: (renderValues values ++ [')'])))
        (.leaf field op values) := by
    intro op htakes hlen
    have hleaf := @IsLeaf.list toLowercase _ _ op values hfield htakes
      (areValues_renderValues hlen hvalues)
    rw [String.ofList_toList] at hleaf
    exact hleaf
  cases op with
  | null b =>
    obtain rfl : values = [] := List.length_eq_zero_iff.mp hop
    have hflag : '"' ∉ (nullText b).toList := by cases b <;> decide
    have hleaf := IsLeaf.null (f := field.toList) b hfield (isValue_quote hflag) (hlower b)
    rw [String.ofList_toList] at hleaf
    exact hleaf
  | inList => exact hlist .inList trivial hop
  | out => exact hlist .out trivial hop
  | between => exact hlist .between trivial hop
  | eq => exact hscalar .eq trivial hop
  | neq => exact hscalar .neq trivial hop
  | gt => exact hscalar .gt trivial hop
  | ge => exact hscalar .ge trivial hop
  | lt => exact hscalar .lt trivial hop
  | le => exact hscalar .le trivial hop
  | like => exact hscalar .like trivial hop
  | ilike => exact hscalar .ilike trivial hop
  | contains => exact hscalar .contains trivial hop
  | starts => exact hscalar .starts trivial hop
  | ends => exact hscalar .ends trivial hop

theorem Derives.isFilter {s : List Char} (h : Derives toLowercase .atom s [t]) :
    IsFilter toLowercase s t := ⟨[t], .orOne (.andOne h), rfl⟩

theorem IsFilter.group {s : List Char} (h : IsFilter toLowercase s t) :
    Derives toLowercase .atom ('(' :: (s ++ [')'])) [t] := by
  obtain ⟨ts, hts, rfl⟩ := h
  exact .group hts

/-- A text of the grammar begins with a parenthesis or a field. -/
theorem Derives.head {rule : Rule} {s : List Char} (h : Derives toLowercase rule s ts) :
    ∃ c, s.head? = some c ∧ (c = '(' ∨ isFieldChar c = true) := by
  have hfield : ∀ f l : List Char, IsField f →
      ∃ c, (f ++ l).head? = some c ∧ (c = '(' ∨ isFieldChar c = true) := by
    intro f l hf
    obtain ⟨c, f', rfl⟩ := List.exists_cons_of_ne_nil hf.1
    exact ⟨c, rfl, .inr (hf.2 c List.mem_cons_self)⟩
  induction h with
  | leaf h =>
    cases h with
    | scalar hf => exact hfield _ _ hf
    | list hf => exact hfield _ _ hf
    | null _ hf => exact hfield _ _ hf
  | group h ih => exact ⟨'(', rfl, .inl rfl⟩
  | andOne h ih => exact ih
  | orOne h ih => exact ih
  | andCons h hs ih =>
    obtain ⟨c, hc, hkind⟩ := ih
    exact ⟨c, by rw [List.head?_append, hc]; rfl, hkind⟩
  | orCons h hs ih =>
    obtain ⟨c, hc, hkind⟩ := ih
    exact ⟨c, by rw [List.head?_append, hc]; rfl, hkind⟩

theorem collapse_of_two (group : List FilterNode → FilterNode) (h : 2 ≤ ts.length) :
    collapse group ts = group ts := by
  match ts, h with
  | _ :: _ :: _, _ => rfl

/-- The members of an `and` are printed as its atoms. -/
theorem derives_and_members (hts : ts ≠ [])
    (h : ∀ c ∈ ts, Derives toLowercase .atom (enclose c c.render) [c]) :
    Derives toLowercase .and (renderMembers ';' ts) ts := by
  induction ts with
  | nil => exact absurd rfl hts
  | cons c cs ih =>
    have hc := h c List.mem_cons_self
    cases cs with
    | nil => exact .andOne hc
    | cons d ds =>
      exact .andCons hc (ih (List.cons_ne_nil d ds) fun x hx => h x (List.mem_cons_of_mem c hx))

/-- The members of an `or` are printed as its members, each an `and` of one atom. -/
theorem derives_or_members (hts : ts ≠ [])
    (h : ∀ c ∈ ts, Derives toLowercase .atom (enclose c c.render) [c]) :
    Derives toLowercase .or (renderMembers ',' ts) ts := by
  induction ts with
  | nil => exact absurd rfl hts
  | cons c cs ih =>
    have hc := Derives.andOne (h c List.mem_cons_self)
    cases cs with
    | nil => exact .orOne hc
    | cons d ds =>
      exact .orCons hc (ih (List.cons_ne_nil d ds) fun x hx => h x (List.mem_cons_of_mem c hx))

/-- A tree is printed as a filter, and as an atom where it is a member. -/
theorem derives_render (hlower : LowersFlags toLowercase) (hwf : t.WellFormed)
    (hleaves : t.Leaves Printable) :
    IsFilter toLowercase t.render t ∧ Derives toLowercase .atom (enclose t t.render) [t] := by
  induction t with
  | and cs ih =>
    cases hwf with
    | and hlen hwf =>
      cases hleaves with
      | and hleaves =>
        have hne : cs ≠ [] := by
          rintro rfl
          exact absurd hlen (by decide)
        have hand := derives_and_members hne fun c hc => (ih c hc (hwf c hc) (hleaves c hc)).2
        have hfilter : IsFilter toLowercase (FilterNode.and cs).render (.and cs) :=
          ⟨_, .orOne hand, (collapse_of_two .and hlen).symm⟩
        exact ⟨hfilter, hfilter.group⟩
  | or cs ih =>
    cases hwf with
    | or hlen hwf =>
      cases hleaves with
      | or hleaves =>
        have hne : cs ≠ [] := by
          rintro rfl
          exact absurd hlen (by decide)
        have hor := derives_or_members hne fun c hc => (ih c hc (hwf c hc) (hleaves c hc)).2
        have hfilter : IsFilter toLowercase (FilterNode.or cs).render (.or cs) :=
          ⟨_, hor, (collapse_of_two .or hlen).symm⟩
        exact ⟨hfilter, hfilter.group⟩
  | leaf field op values =>
    cases hwf with
    | leaf hop =>
      cases hleaves with
      | leaf h =>
        have hatom := Derives.leaf (isLeaf_render hlower hop h)
        exact ⟨hatom.isFilter, hatom⟩

/-- **The text of a tree is derivable with the tree.** -/
theorem isFilter_render (hlower : LowersFlags toLowercase) (hwf : t.WellFormed)
    (hleaves : t.Leaves Printable) : IsFilter toLowercase t.render t :=
  (derives_render hlower hwf hleaves).1

end Derivable

/-! ### What is printed is trimmed -/

section Trimmed

/-- The first and the last character are no blanks. -/
def Trimmed (l : List Char) : Prop :=
  (∃ c ∈ l.head?, isWhitespace c = false) ∧ ∃ c ∈ l.getLast?, isWhitespace c = false

variable {s t : List Char}

theorem Trimmed.append (hs : Trimmed s) (ht : Trimmed t) (mid : List Char) :
    Trimmed (s ++ (mid ++ t)) := by
  obtain ⟨⟨a, ha, hablank⟩, -⟩ := hs
  obtain ⟨-, ⟨b, hb, hbblank⟩⟩ := ht
  refine ⟨⟨a, ?_, hablank⟩, ⟨b, ?_, hbblank⟩⟩
  · rw [List.head?_append, ha]
    rfl
  · rw [List.getLast?_append, List.getLast?_append, hb]
    rfl

theorem trimmed_enclosed (s : List Char) {a b : Char} (ha : isWhitespace a = false)
    (hb : isWhitespace b = false) : Trimmed (a :: (s ++ [b])) := by
  refine ⟨⟨a, rfl, ha⟩, ⟨b, ?_, hb⟩⟩
  rw [← List.cons_append, List.getLast?_append]
  rfl

theorem isWhitespace_of_isFieldChar {c : Char} (h : isFieldChar c = true) : isWhitespace c = false := by
  rcases Bool.or_eq_true_iff.mp h with halpha | hunderscore
  · exact isWhitespace_of_isAlphanum halpha
  · rw [eq_of_beq hunderscore]
    decide

theorem IsField.trimmed (h : IsField s) : Trimmed s := by
  obtain ⟨hne, hall⟩ := h
  refine ⟨⟨s.head hne, List.head?_eq_some_head hne, ?_⟩, ⟨s.getLast hne, List.getLast?_eq_some_getLast hne, ?_⟩⟩
  · exact isWhitespace_of_isFieldChar (hall _ (List.head_mem hne))
  · exact isWhitespace_of_isFieldChar (hall _ (List.getLast_mem hne))

theorem trimmed_quote (v : String) : Trimmed (quote v) := trimmed_enclosed _ (by decide) (by decide)

theorem trimmed_renderArguments {op : RsqlOp} {values : List String}
    (h : op.Admits values.length) : Trimmed (renderArguments op values) := by
  have hone : values.length = 1 → Trimmed (renderValues values) := by
    intro hlen
    obtain ⟨v, rfl⟩ := List.length_eq_one_iff.mp hlen
    exact trimmed_quote v
  cases op with
  | null b => exact trimmed_quote _
  | inList => exact trimmed_enclosed _ (by decide) (by decide)
  | out => exact trimmed_enclosed _ (by decide) (by decide)
  | between => exact trimmed_enclosed _ (by decide) (by decide)
  | _ => exact hone h

theorem trimmed_enclose {c : FilterNode} (h : Trimmed c.render) : Trimmed (enclose c c.render) := by
  cases c with
  | leaf => exact h
  | and => exact trimmed_enclosed _ (by decide) (by decide)
  | or => exact trimmed_enclosed _ (by decide) (by decide)

theorem trimmed_renderMembers {cs : List FilterNode} (sep : Char) (hcs : cs ≠ [])
    (h : ∀ c ∈ cs, Trimmed c.render) : Trimmed (renderMembers sep cs) := by
  induction cs with
  | nil => exact absurd rfl hcs
  | cons c cs ih =>
    have hc := trimmed_enclose (h c List.mem_cons_self)
    cases cs with
    | nil => exact hc
    | cons d ds =>
      exact hc.append (ih (List.cons_ne_nil d ds) fun x hx => h x (List.mem_cons_of_mem c hx)) [sep]

theorem trimmed_render {t : FilterNode} (hwf : t.WellFormed) (hleaves : t.Leaves Printable) :
    Trimmed t.render := by
  have hne : ∀ cs : List FilterNode, 2 ≤ cs.length → cs ≠ [] := by
    rintro _ hlen rfl
    exact absurd hlen (by decide)
  induction t with
  | and cs ih =>
    cases hwf with
    | and hlen hwf =>
      cases hleaves with
      | and hleaves =>
        exact trimmed_renderMembers ';' (hne cs hlen) fun c hc => ih c hc (hwf c hc) (hleaves c hc)
  | or cs ih =>
    cases hwf with
    | or hlen hwf =>
      cases hleaves with
      | or hleaves =>
        exact trimmed_renderMembers ',' (hne cs hlen) fun c hc => ih c hc (hwf c hc) (hleaves c hc)
  | leaf field op values =>
    cases hwf with
    | leaf hop =>
      cases hleaves with
      | leaf h => exact h.1.trimmed.append (trimmed_renderArguments hop) op.display.toList

theorem Trimmed.trim_eq (h : Trimmed s) : trim (.ofList s) = .ofList s := by
  obtain ⟨⟨a, ha, hablank⟩, ⟨b, hb, hbblank⟩⟩ := h
  apply trim_eq_self
  · intro c hc
    rw [String.toList_ofList] at hc
    obtain rfl : a = c := Option.some.inj (ha.symm.trans hc)
    exact hablank
  · intro c hc
    rw [String.toList_ofList] at hc
    obtain rfl : b = c := Option.some.inj (hb.symm.trans hc)
    exact hbblank

/-- **Parsing what is printed gives the tree back.** -/
theorem parseRsql_render {toLowercase : String → String} {t : FilterNode}
    (hlower : LowersFlags toLowercase) (hwf : t.WellFormed) (hleaves : t.Leaves Printable) :
    parseRsql toLowercase (.ofList t.render) = .ok t := by
  have htrimmed := trimmed_render hwf hleaves
  rw [parseRsql_eq_ok, htrimmed.trim_eq, String.toList_ofList]
  refine ⟨?_, isFilter_render hlower hwf hleaves⟩
  intro hempty
  obtain ⟨⟨c, hc, -⟩, -⟩ := htrimmed
  rw [String.ofList_eq_empty_iff.mp hempty] at hc
  cases hc

/-- **`parse_rsql` accepts the grammar, with its trees**: it ends without a slice out of range, a text
has one tree, and parsing what is printed gives the tree back. -/
theorem parse_rsql_accepts (toLowercase : String → String) :
    (∀ input, ∃ result, Cursor.parseRsql toLowercase input = .ok result ∧
      ∀ t, result = .ok t ↔ trim input ≠ "" ∧ IsFilter toLowercase (trim input).toList t) ∧
    (∀ s t t', IsFilter toLowercase s t → IsFilter toLowercase s t' → t = t') ∧
    ∀ t, LowersFlags toLowercase → t.WellFormed → t.Leaves Printable →
      Cursor.parseRsql toLowercase (.ofList t.render) = .ok (.ok t) := by
  refine ⟨fun input => ?_, fun s t t' h h' => h.unique h', fun t hlower hwf hleaves => ?_⟩
  · exact ⟨_, Cursor.parseRsql_eq toLowercase input, fun t => parseRsql_eq_ok⟩
  · rw [Cursor.parseRsql_eq, parseRsql_render hlower hwf hleaves]

/-- `a=="x,y",b=null="true"`, as it is parsed. -/
theorem parse_rsql_accepts_or :
    Cursor.parseRsql id
        (.ofList (FilterNode.or [.leaf "a" .eq ["x,y"], .leaf "b" (.null true) []]).render) =
      .ok (.ok (.or [.leaf "a" .eq ["x,y"], .leaf "b" (.null true) []])) := by
  have hfield : ∀ c, isFieldChar c = true → IsField [c] := by
    intro c hc
    exact ⟨List.cons_ne_nil c [], fun b hb => List.mem_singleton.mp hb ▸ hc⟩
  refine (parse_rsql_accepts id).2.2 _ (fun _ => rfl) (.or (by decide) ?_) (.or ?_)
  · intro c hc
    rcases List.mem_pair.mp hc with rfl | rfl
    · exact .leaf rfl
    · exact .leaf rfl
  · intro c hc
    rcases List.mem_pair.mp hc with rfl | rfl
    · exact .leaf ⟨hfield 'a' (by decide), by simp [NoQuotes]⟩
    · exact .leaf ⟨hfield 'b' (by decide), by simp [NoQuotes]⟩

/-- A leaf without a field is not parsed back. -/
theorem not_parsed_without_field : ¬ ∀ (toLowercase : String → String) (t : FilterNode),
    LowersFlags toLowercase → t.WellFormed → t.Leaves (fun _ values => NoQuotes values) →
      Cursor.parseRsql toLowercase (.ofList t.render) = .ok (.ok t) := by
  intro h
  have hparsed := h id (.leaf "" .eq ["x"]) (fun _ => rfl) (.leaf rfl) (.leaf (by simp [NoQuotes]))
  rw [Cursor.parseRsql_eq] at hparsed
  obtain ⟨-, ts, hts, -⟩ := parseRsql_eq_ok.mp (Except.ok.inj hparsed)
  have htrim : trim (.ofList (FilterNode.leaf "" .eq ["x"]).render) =
      .ofList (FilterNode.leaf "" .eq ["x"]).render :=
    Trimmed.trim_eq ⟨⟨'=', rfl, by decide⟩, ⟨'"', rfl, by decide⟩⟩
  rw [htrim, String.toList_ofList] at hts
  obtain ⟨c, hc, hkind⟩ := hts.head
  obtain rfl : '=' = c := Option.some.inj hc
  rcases hkind with h | h <;> exact absurd h (by decide)

end Trimmed

end Authrs.Query
