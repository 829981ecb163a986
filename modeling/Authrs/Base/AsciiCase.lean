import Authrs.Base.Text

/-!
# Texts up to the case of ASCII letters

## Main definitions

* `EqIgnoreAsciiCase`: texts that differ in the case of ASCII letters only
* `FoldsAsciiCase`: a text function that does not tell such texts apart

## Main results

* `EqIgnoreAsciiCase.trim`, `EqIgnoreAsciiCase.rsplitOnce`: they are trimmed and split alike
-/

namespace Authrs

/-- `str::eq_ignore_ascii_case`. -/
def EqIgnoreAsciiCase (a b : String) : Prop :=
  a.toList.map Char.toLower = b.toList.map Char.toLower

instance instDecidableEqIgnoreAsciiCase (a b : String) : Decidable (EqIgnoreAsciiCase a b) :=
  inferInstanceAs (Decidable (_ = _))

/-- Texts equal up to the case of ASCII letters have the same image. -/
def FoldsAsciiCase (f : String → String) : Prop :=
  ∀ a b, EqIgnoreAsciiCase a b → f a = f b

/-- The small letter of a capital is 32 places after it; other characters are not changed. -/
theorem toNat_toLower_eq (c : Char) :
    c.toLower.toNat = if 65 ≤ c.toNat ∧ c.toNat ≤ 90 then c.toNat + 32 else c.toNat := by
  have hbounds : (c.val ≥ 'A'.val ∧ c.val ≤ 'Z'.val) ↔ 65 ≤ c.toNat ∧ c.toNat ≤ 90 :=
    and_congr UInt32.le_iff_toNat_le UInt32.le_iff_toNat_le
  by_cases hc : c.val ≥ 'A'.val ∧ c.val ≤ 'Z'.val
  · have hval : c.toLower.val = c.val + ('a'.val - 'A'.val) := congrArg Char.val (dif_pos hc)
    have hsum : c.toLower.toNat = (c.toNat + 32) % 4294967296 :=
      (congrArg UInt32.toNat hval).trans (UInt32.toNat_add _ _)
    have hhigh := (hbounds.mp hc).2
    rw [if_pos (hbounds.mp hc), hsum, Nat.mod_eq_of_lt (by omega)]
  · have hsame : c.toLower = c := dif_neg hc
    rw [if_neg fun h => hc (hbounds.mpr h), hsame]

theorem char_eq_iff_toNat {a b : Char} : a = b ↔ a.toNat = b.toNat :=
  ⟨congrArg _, fun h => Char.ext (UInt32.toNat_inj.mp h)⟩

/-- A character is its own lowercase form, or it is an ASCII capital. -/
theorem toNat_toLower (c : Char) :
    c.toLower = c ∨ 65 ≤ c.toNat ∧ c.toNat ≤ 90 ∧ c.toLower.toNat = c.toNat + 32 := by
  rw [char_eq_iff_toNat, toNat_toLower_eq]
  split <;> omega

theorem toLower_toLower (c : Char) : c.toLower.toLower = c.toLower := by
  rw [char_eq_iff_toNat, toNat_toLower_eq c.toLower, toNat_toLower_eq c]
  split_ifs <;> omega

/-- No letter is blank. -/
theorem isWhitespace_toLower (c : Char) : isWhitespace c.toLower = isWhitespace c := by
  rcases toNat_toLower c with h | ⟨hlow, hhigh, hnat⟩
  · rw [h]
  · have hblank : ∀ d : Char, 65 ≤ d.toNat → d.toNat ≤ 122 → isWhitespace d = false := by
      intro d hd hd'
      simp only [isWhitespace, Bool.or_eq_false_iff, Bool.and_eq_false_iff, decide_eq_false_iff_not,
        beq_eq_false_iff_ne]
      omega
    rw [hblank c hlow (by omega), hblank c.toLower (by omega) (by omega)]

/-- A character that is no ASCII letter is not changed into, nor made. -/
theorem toLower_eq_iff {c d : Char} (hd : d.toNat < 65) : c.toLower = d ↔ c = d := by
  rcases toNat_toLower c with h | ⟨hlow, hhigh, hnat⟩
  · rw [h]
  · constructor
    · rintro rfl
      omega
    · rintro rfl
      omega

theorem dropWhile_toLower (l : List Char) :
    (l.dropWhile isWhitespace).map Char.toLower = (l.map Char.toLower).dropWhile isWhitespace := by
  rw [List.dropWhile_map]
  congr
  funext c
  exact (isWhitespace_toLower c).symm

theorem splitOnceList_toLower {d : Char} (hd : d.toNat < 65) (l : List Char) :
    splitOnceList d (l.map Char.toLower) =
      (splitOnceList d l).map fun p => (p.1.map Char.toLower, p.2.map Char.toLower) := by
  induction l with
  | nil => rfl
  | cons c l ih =>
    rw [List.map_cons, splitOnceList, splitOnceList, ih]
    by_cases hc : c = d
    · rw [if_pos hc, if_pos ((toLower_eq_iff hd).mpr hc)]
      rfl
    · rw [if_neg hc, if_neg fun h => hc ((toLower_eq_iff hd).mp h), Option.map_map, Option.map_map]
      rfl

namespace EqIgnoreAsciiCase

variable {a b : String}

theorem symm (h : EqIgnoreAsciiCase a b) : EqIgnoreAsciiCase b a := Eq.symm h

theorem trim (h : EqIgnoreAsciiCase a b) : EqIgnoreAsciiCase (trim a) (Authrs.trim b) := by
  have hlower : ∀ s : String, (Authrs.trim s).toList.map Char.toLower =
      (((s.toList.map Char.toLower).dropWhile isWhitespace).reverse.dropWhile
        isWhitespace).reverse := by
    intro s
    unfold Authrs.trim
    rw [String.toList_ofList, List.map_reverse, dropWhile_toLower, List.map_reverse,
      dropWhile_toLower]
  unfold EqIgnoreAsciiCase at h ⊢
  rw [hlower, hlower, h]

/-- What follows the last separator. -/
theorem rsplitOnce (h : EqIgnoreAsciiCase a b) {d : Char} (hd : d.toNat < 65) :
    Option.Rel (fun p q => EqIgnoreAsciiCase p.2 q.2) (rsplitOnce a d) (Authrs.rsplitOnce b d) := by
  have hsplit := congrArg (splitOnceList d ∘ List.reverse) h
  simp only [Function.comp_apply, ← List.map_reverse, splitOnceList_toLower hd] at hsplit
  unfold Authrs.rsplitOnce
  cases ha : splitOnceList d a.toList.reverse with
  | none =>
    rw [ha] at hsplit
    rw [Option.map_eq_none_iff.mp hsplit.symm]
    exact .none
  | some p =>
    rw [ha] at hsplit
    obtain ⟨q, hq, heq⟩ := Option.map_eq_some_iff.mp hsplit.symm
    rw [hq]
    refine .some ?_
    have hfirst : q.1.map Char.toLower = p.1.map Char.toLower := (Prod.mk.inj heq).1
    unfold EqIgnoreAsciiCase
    rw [String.toList_ofList, String.toList_ofList, List.map_reverse, List.map_reverse, hfirst]

end EqIgnoreAsciiCase

end Authrs
