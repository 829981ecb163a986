import Authrs.Query.Meaning
import Authrs.SqlText.Like

/-!
# Filters on a part of a text

`=contains=`, `=starts=` and `=ends=` become an `ILIKE` with the value in the middle of a pattern, as
it is. So a value that has a special character is read as a pattern, and the predicate is true on
other texts than those that have the value as a part.

## Main definitions

* `RsqlOp.pattern`: the pattern of a value
* `RsqlOp.Literally`: the text of a column has the value as a part
* `ilikeOperators`: operators on texts, with patterns

## Main results

* `ilike_pattern_iff`: the patterns that mean the operator
* `buildLeaf_ilike`: what the operators are turned into
* `build_leaf_literally_iff`: the values for which the predicate means the operator
-/

namespace Authrs.Query

open SqlText

/-- The operators on a part of a text. -/
def RsqlOp.OnPart (op : RsqlOp) : Prop := op = contains ∨ op = starts ∨ op = ends

/-- The pattern that the builder makes of a value. -/
def RsqlOp.pattern (v : String) : RsqlOp → String
  | contains => "%" ++ v ++ "%"
  | starts => v ++ "%"
  | ends => "%" ++ v
  | _ => v

/-- **The text has the value as a part**, up to case: anywhere, at its beginning or at its end. -/
def RsqlOp.Literally (F : CaseFold) (v t : List Char) : RsqlOp → Prop
  | contains => Contains F v t
  | starts => StartsWith F v t
  | ends => EndsWith F v t
  | _ => False

/-- **The patterns that mean the operator** are those of values without special characters. -/
theorem ilike_pattern_iff {F : CaseFold} {op : RsqlOp} (hop : op.OnPart) (v : String) :
    (∀ t : String, Ilike F (op.pattern v).toList t.toList ↔ op.Literally F v.toList t.toList) ↔
      Plain v.toList := by
  have hall : ∀ P : List Char → Prop, (∀ t : String, P t.toList) ↔ ∀ t, P t := by
    intro P
    constructor
    · intro h t
      have ht := h (.ofList t)
      rwa [String.toList_ofList] at ht
    · intro h t
      exact h t.toList
  rw [hall fun t => Ilike F (op.pattern v).toList t ↔ op.Literally F v.toList t]
  rcases hop with rfl | rfl | rfl
  · change (∀ t, Ilike F ("%" ++ v ++ "%").toList t ↔ Contains F v.toList t) ↔ _
    rw [String.toList_append, String.toList_append, List.append_assoc]
    exact ilike_contains_iff
  · change (∀ t, Ilike F (v ++ "%").toList t ↔ StartsWith F v.toList t) ↔ _
    rw [String.toList_append]
    exact ilike_starts_iff
  · change (∀ t, Ilike F ("%" ++ v).toList t ↔ EndsWith F v.toList t) ↔ _
    rw [String.toList_append]
    exact ilike_ends_iff

section Leaf

variable {V : Type} {ops : Operators V} {fields : FieldMap} {b c : Builder} {field text v : String}
  {op : RsqlOp}

/-- The leaf of such an operator. -/
theorem buildLeaf_onPart (hop : op.OnPart) (h : buildLeaf fields b field op [v] = .ok (text, c)) :
    ∃ spec, lookup fields field = .ok spec ∧ spec.ty = .text ∧
      c = ⟨b.params ++ [op.pattern v], b.next + 1⟩ ∧
        text = spec.column.text ++ " ILIKE " ++ (b.ph (op.pattern v) none).1 := by
  obtain ⟨spec, hspec, h⟩ := bind_eq_ok.mp h
  split at h
  · cases h
  · rename_i hvalid
    rw [Bool.not_eq_true, Bool.not_eq_false'] at hvalid
    refine ⟨spec, hspec, ?_, ?_⟩
    · rcases hop with rfl | rfl | rfl <;> cases hty : spec.ty <;> rw [hty] at hvalid <;>
        first | rfl | cases hvalid
    · rcases hop with rfl | rfl | rfl <;> cases h <;> exact ⟨rfl, rfl⟩

/-- **What the operators are turned into**: an `ILIKE` on the column. -/
theorem buildLeaf_ilike (ops : Operators V) (hop : op.OnPart)
    (h : buildLeaf fields b field op [v] = .ok (text, c)) :
    ∃ spec, lookup fields field = .ok spec ∧ spec.ty = .text ∧
      c = ⟨b.params ++ [op.pattern v], b.next + 1⟩ ∧ ∃ e, condition text = some e ∧
        ∀ row args, args b.next = ops.text (op.pattern v) →
          e.eval ops row args = ops.like true (row spec.column.text) (ops.text (op.pattern v)) := by
  obtain ⟨spec, hspec, hty, hc, rfl⟩ := buildLeaf_onPart hop h
  obtain ⟨e, hdenotes, heval⟩ := (leafText_like ops b spec.column true (op.pattern v)).means
  have hcondition := condition_join (.cons hdenotes .nil)
  refine ⟨spec, hspec, hty, hc, e, hcondition, fun row args hargs => ?_⟩
  exact heval row args ⟨hargs, trivial⟩

/-- **The values for which the predicate means the operator**, on every text of the column: those
without `%`, `_` and backslash. -/
theorem build_leaf_literally_iff (F : CaseFold)
    (hlike : ∀ t p : String,
      ops.like true (ops.text t) (ops.text p) = .yes ↔ Ilike F p.toList t.toList)
    (hop : op.OnPart) (h : buildLeaf fields b field op [v] = .ok (text, c)) :
    ∃ spec, lookup fields field = .ok spec ∧ spec.ty = .text ∧
      c = ⟨b.params ++ [op.pattern v], b.next + 1⟩ ∧ ∃ e, condition text = some e ∧
        ((∀ (t : String) (row : String → V) (args : Nat → V), row spec.column.text = ops.text t →
            args b.next = ops.text (op.pattern v) →
              (e.eval ops row args = .yes ↔ op.Literally F v.toList t.toList)) ↔
          Plain v.toList) := by
  obtain ⟨spec, hspec, hty, hc, e, hcondition, heval⟩ := buildLeaf_ilike ops hop h
  refine ⟨spec, hspec, hty, hc, e, hcondition, ?_⟩
  rw [← ilike_pattern_iff hop v]
  refine forall_congr' fun t => ?_
  constructor
  · intro hrow
    have ht := hrow (fun _ => ops.text t) (fun _ => ops.text (op.pattern v)) rfl rfl
    rwa [heval _ _ rfl, hlike] at ht
  · intro hpattern row args hrow hargs
    rw [heval row args hargs, hrow, hlike]
    exact hpattern

end Leaf

/-! ### Operators with patterns -/

/-- Lowering the letters of ASCII. -/
def asciiFold : CaseFold where
  fold c := if 'A' ≤ c ∧ c ≤ 'Z' then Char.ofNat (c.toNat + 32) else c
  percent c h := by
    change (if 'A' ≤ c ∧ c ≤ 'Z' then Char.ofNat (c.toNat + 32) else c) = '%' at h
    split at h
    · rename_i hupper
      have hcapitals : ∀ n < 91, 65 ≤ n → Char.ofNat (n + 32) ≠ '%' := by decide
      exact absurd h (hcapitals c.toNat (Nat.lt_succ_of_le hupper.2) hupper.1)
    · exact h

/-- Operators on texts, which may be `NULL`, with patterns up to case. -/
def ilikeOperators (F : CaseFold) : Operators (Option String) :=
  { textOperators with
    like := fun _ a b =>
      match a, b with
      | some t, some p => .ofBool (decide (Ilike F p.toList t.toList))
      | _, _ => .unknown }

theorem ilikeOperators_like (F : CaseFold) (t p : String) :
    (ilikeOperators F).like true ((ilikeOperators F).text t) ((ilikeOperators F).text p) = .yes ↔
      Ilike F p.toList t.toList := by
  change Truth.ofBool (decide (Ilike F p.toList t.toList)) = .yes ↔ _
  by_cases h : Ilike F p.toList t.toList
  · simp [h, Truth.ofBool]
  · simp [h, Truth.ofBool]

/-- `email=contains=gmail` on the memberships. -/
theorem build_leaf_literally_gmail :
    ∃ spec, lookup userFilterFields "email" = .ok spec ∧ spec.ty = .text ∧
      (⟨["%gmail%"], 3⟩ : Builder) = ⟨[] ++ [RsqlOp.contains.pattern "gmail"], 2 + 1⟩ ∧
        ∃ e, condition "i.email ILIKE $2" = some e ∧
          ((∀ (t : String) (row : String → Option String) (args : Nat → Option String),
              row spec.column.text = (ilikeOperators asciiFold).text t →
                args 2 = (ilikeOperators asciiFold).text (RsqlOp.contains.pattern "gmail") →
                  (e.eval (ilikeOperators asciiFold) row args = .yes ↔
                    RsqlOp.contains.Literally asciiFold "gmail".toList t.toList)) ↔
            Plain "gmail".toList) := by
  have hbuild : buildLeaf userFilterFields ⟨[], 2⟩ "email" .contains ["gmail"] =
      .ok ("i.email ILIKE $2", ⟨["%gmail%"], 3⟩) := by rfl
  exact build_leaf_literally_iff asciiFold (ilikeOperators_like asciiFold) (.inl rfl) hbuild

/-- **An underscore is no underscore**: `email=contains=a_b` is true on `axb`. -/
theorem build_leaf_not_literally :
    ¬ ∀ {V : Type} (ops : Operators V) (F : CaseFold) (fields : FieldMap) (b c : Builder)
        (field text v : String) (op : RsqlOp),
      (∀ t p : String,
        ops.like true (ops.text t) (ops.text p) = .yes ↔ Ilike F p.toList t.toList) →
      op.OnPart → buildLeaf fields b field op [v] = .ok (text, c) →
      ∃ spec, lookup fields field = .ok spec ∧ ∃ e, condition text = some e ∧
        ∀ (t : String) (row : String → V) (args : Nat → V), row spec.column.text = ops.text t →
          args b.next = ops.text (op.pattern v) →
            (e.eval ops row args = .yes ↔ op.Literally F v.toList t.toList) := by
  intro h
  have hbuild : buildLeaf userFilterFields ⟨[], 2⟩ "email" .contains ["a_b"] =
      .ok ("i.email ILIKE $2", ⟨["%a_b%"], 3⟩) := by rfl
  obtain ⟨spec, hspec, e, he, hall⟩ := h (ilikeOperators asciiFold) asciiFold userFilterFields _ _ _ _
    _ _ (ilikeOperators_like asciiFold) (.inl rfl) hbuild
  obtain ⟨spec', hspec', -, -, e', he', heval⟩ :=
    buildLeaf_ilike (ilikeOperators asciiFold) (.inl rfl) hbuild
  obtain rfl : spec = spec' := Except.ok.inj (hspec.symm.trans hspec')
  obtain rfl : e = e' := Option.some.inj (he.symm.trans he')
  have htrue := (hall "axb" (fun _ => some "axb") (fun _ => some "%a_b%") rfl rfl).mp
    ((heval _ _ rfl).trans (by decide +kernel))
  have hinfix : "a_b".toList.map asciiFold.fold <:+: "axb".toList.map asciiFold.fold := htrue
  exact absurd hinfix (by decide +kernel)

end Authrs.Query
