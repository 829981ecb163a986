import Authrs.Query.Printing

/-!
# The values that a filter can have

An unquoted value ends before `,`, `;`, `(` and `)` and does not begin with a quote, and a quoted one
ends at the next quote, since nothing is escaped. So a value is read from some text when it has no
quote, or could stand unquoted. The blanks at its ends are no obstacle: in parentheses they are not
trimmed.

## Main definitions

* `Expressible v`: the value can be written

## Main results

* `exists_isValue_iff`: the values of the grammar
* `Derives.isLeaf`: a leaf of a tree stands in its text
* `parse_rsql_reads_value_iff`: the values that `parse_rsql` can return
* `quote_not_read`: a quote is not among them
-/

namespace Authrs.Query

/-- **The value can be written**: between quotes, or as it is. -/
def Expressible (v : String) : Prop :=
  '"' ∉ v.toList ∨ v.toList.head? ≠ some '"' ∧ ∀ c ∈ v.toList, isValueChar c = true

instance Expressible.decidable (v : String) : Decidable (Expressible v) :=
  inferInstanceAs (Decidable (_ ∨ _ ∧ _))

variable {toLowercase : String → String} {f : List Char} {v : String}

/-- The values of the grammar. -/
theorem exists_isValue_iff : (∃ s, IsValue s v) ↔ Expressible v := by
  constructor
  · rintro ⟨s, hs⟩
    unfold Expressible
    cases hs with
    | quoted h =>
      rw [String.toList_ofList]
      exact .inl h
    | plain h hstart =>
      rw [String.toList_ofList]
      exact .inr ⟨hstart, h⟩
  · rintro (hquoted | ⟨hstart, hplain⟩)
    · exact ⟨quote v, isValue_quote hquoted⟩
    · have hvalue := IsValue.plain hplain hstart
      rw [String.ofList_toList] at hvalue
      exact ⟨_, hvalue⟩

/-- A leaf that stands for a group is its only member. -/
theorem mem_of_leaf_eq_collapse {group : List FilterNode → FilterNode}
    (hgroup : ∀ ts field op values, group ts ≠ .leaf field op values) {ts : List FilterNode}
    {field : String} {op : RsqlOp} {values : List String}
    (h : .leaf field op values = collapse group ts) : .leaf field op values ∈ ts := by
  unfold collapse at h
  split at h
  · rw [h]
    exact List.mem_singleton_self _
  · exact absurd h.symm (hgroup _ field op values)

/-- **A leaf of the members of a text** has a text of its own. -/
theorem Derives.isLeaf {rule : Rule} {s : List Char} {ts : List FilterNode}
    (h : Derives toLowercase rule s ts) {field : String} {op : RsqlOp} {values : List String}
    (hleaf : .leaf field op values ∈ ts) : ∃ s', IsLeaf toLowercase s' (.leaf field op values) := by
  have hor : ∀ (us : List FilterNode) field op values,
      FilterNode.or us ≠ .leaf field op values := by
    intro us field op values heq
    cases heq
  have hand : ∀ (us : List FilterNode) field op values,
      FilterNode.and us ≠ .leaf field op values := by
    intro us field op values heq
    cases heq
  induction h with
  | leaf h =>
    rw [List.mem_singleton] at hleaf
    subst hleaf
    exact ⟨_, h⟩
  | group h ih =>
    rw [List.mem_singleton] at hleaf
    exact ih (mem_of_leaf_eq_collapse hor hleaf)
  | andOne h ih => exact ih hleaf
  | andCons h hs ih ihs =>
    rcases List.mem_cons.mp hleaf with heq | hmem
    · exact ih (List.mem_singleton.mpr heq)
    · exact ihs hmem
  | orOne h ih =>
    rw [List.mem_singleton] at hleaf
    exact ih (mem_of_leaf_eq_collapse hand hleaf)
  | orCons h hs ih ihs =>
    rcases List.mem_cons.mp hleaf with heq | hmem
    · exact ih (mem_of_leaf_eq_collapse hand heq)
    · exact ihs hmem

/-- A value that is read can be written. -/
theorem expressible_of_parseRsql {input field : String}
    (h : parseRsql toLowercase input = .ok (.leaf field .eq [v])) : Expressible v := by
  obtain ⟨-, ts, hts, hcollapse⟩ := parseRsql_eq_ok.mp h
  have hmem := mem_of_leaf_eq_collapse (fun _ _ _ _ => by rintro ⟨⟩) hcollapse
  obtain ⟨s, hs⟩ := hts.isLeaf hmem
  cases hs with
  | scalar _ _ hvalue => exact exists_isValue_iff.mp ⟨_, hvalue⟩
  | list _ hop _ => exact False.elim hop

/-- A value that can be written is read, from a leaf in parentheses. -/
theorem exists_parseRsql_of_expressible (hf : IsField f) (h : Expressible v) :
    ∃ input, parseRsql toLowercase input = .ok (.leaf (.ofList f) .eq [v]) := by
  obtain ⟨s, hs⟩ := exists_isValue_iff.mpr h
  have hleaf : IsLeaf toLowercase (f ++ (RsqlOp.eq.display.toList ++ s)) (.leaf (.ofList f) .eq [v]) :=
    .scalar hf trivial hs
  have hgroup := (Derives.leaf hleaf).isFilter.group.isFilter
  refine ⟨.ofList ('(' :: (f ++ (RsqlOp.eq.display.toList ++ s) ++ [')'])), ?_⟩
  have htrimmed : Trimmed ('(' :: (f ++ (RsqlOp.eq.display.toList ++ s) ++ [')'])) :=
    trimmed_enclosed _ (by decide) (by decide)
  rw [parseRsql_eq_ok, htrimmed.trim_eq, String.toList_ofList]
  refine ⟨?_, hgroup⟩
  intro hempty
  cases String.ofList_eq_empty_iff.mp hempty

/-- **The values that a filter can have**: those without a quote, and those that can stand
unquoted. -/
theorem parse_rsql_reads_value_iff (toLowercase : String → String) (hf : IsField f) (v : String) :
    (∃ input, parseRsql toLowercase input = .ok (.leaf (.ofList f) .eq [v])) ↔ Expressible v := by
  constructor
  · rintro ⟨input, h⟩
    exact expressible_of_parseRsql h
  · exact exists_parseRsql_of_expressible hf

theorem isField_iff {f : List Char} :
    IsField f ↔ f.isEmpty = false ∧ f.all isFieldChar = true := by
  rw [List.all_eq_true, ← Bool.not_eq_true, List.isEmpty_iff]
  exact Iff.rfl

/-- `status` can be `trial "b"`, which is not to be quoted. -/
theorem parse_rsql_reads_inner_quote :
    ∃ input, parseRsql id input = .ok (.leaf (.ofList "status".toList) .eq ["trial \"b\" "]) :=
  (parse_rsql_reads_value_iff id (isField_iff.mpr ⟨by decide +kernel, by decide +kernel⟩)
    "trial \"b\" ").mpr (.inr ⟨by decide +kernel, List.all_eq_true.mp (by decide +kernel)⟩)

/-- **No text has a lone quote as the value** of a field. -/
theorem quote_not_read : ¬ ∀ (toLowercase : String → String) (f : List Char) (v : String),
    IsField f → ∃ input, parseRsql toLowercase input = .ok (.leaf (.ofList f) .eq [v]) := by
  intro h
  obtain ⟨input, hparse⟩ := h id "a".toList "\"" (isField_iff.mpr ⟨by decide +kernel, by decide +kernel⟩)
  exact absurd (expressible_of_parseRsql hparse) (by decide +kernel)

end Authrs.Query
