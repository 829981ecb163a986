import Mathlib.Data.List.Basic

/-!
# Quoted texts

How a text is written between double quotes, as `str::escape_debug` writes it: quotes, apostrophes,
backslashes and a few control characters are written with a backslash, and what does not print by
its number, as does a character at the beginning that extends the one before it. The tables of
Unicode are a parameter.

## Main definitions

* `EscapeTables`: which characters print, and which extend the one before them
* `escapeDebug`: its namesake
* `Plain`, `Normal`: the characters and the texts that are written as they are

## Main results

* `escapeDebug_eq_self_iff`: the texts that are written as they are
-/

namespace Cedar

/-- The tables that `escape_debug` goes by. What they say of ASCII is known. -/
structure EscapeTables where
  printable : Char → Bool
  graphemeExtend : Char → Bool
  ascii : ∀ c : Char, 32 ≤ c.toNat → c.toNat ≤ 126 → printable c = true ∧ graphemeExtend c = false

/-- The escape sequence with the number of a character. -/
def escapeUnicode (c : Char) : List Char :=
  '\\' :: 'u' :: '\x7b' :: (Nat.toDigits 16 c.toNat ++ ['\x7d'])

/-- The characters with an escape sequence of their own, and its letter. -/
def escapeLetters : List (Char × Char) :=
  [('\x00', '0'), ('\t', 't'), ('\r', 'r'), ('\n', 'n'), ('\\', '\\'), ('"', '"'), ('\'', '\'')]

variable (U : EscapeTables)

/-- A character, at the beginning of a text or later. -/
def escapeChar (first : Bool) (c : Char) : List Char :=
  match escapeLetters.lookup c with
  | some letter => ['\\', letter]
  | none =>
    if first && U.graphemeExtend c then escapeUnicode c
    else if U.printable c then [c]
    else escapeUnicode c

/-- `str::escape_debug` -/
def escapeDebug : List Char → List Char
  | [] => []
  | c :: cs => escapeChar U true c ++ cs.flatMap (escapeChar U false)

/-- The character is written as it is, unless a text begins with it. -/
def Plain (c : Char) : Prop := escapeLetters.lookup c = none ∧ U.printable c = true

instance : DecidablePred (Plain U) := fun _ => inferInstanceAs (Decidable (_ ∧ _))

/-- The text is written as it is. -/
structure Normal (cs : List Char) : Prop where
  plain : ∀ c ∈ cs, Plain U c
  head : ∀ c ∈ cs.head?, U.graphemeExtend c = false

variable {U}

theorem escapeChar_of_plain {first : Bool} {c : Char} (hc : Plain U c)
    (hfirst : first = true → U.graphemeExtend c = false) : escapeChar U first c = [c] := by
  unfold escapeChar
  rw [hc.1]
  have hext : (first && U.graphemeExtend c) = false := by
    cases first with
    | false => rfl
    | true => exact hfirst rfl
  simp [hext, hc.2]

/-- A character that is not written as it is takes more than one. -/
theorem escapeChar_cases (first : Bool) (c : Char) :
    (escapeChar U first c = [c] ∧ Plain U c ∧ (first = true → U.graphemeExtend c = false)) ∨
      2 ≤ (escapeChar U first c).length := by
  unfold escapeChar
  cases hletter : escapeLetters.lookup c with
  | some letter => exact .inr (by simp)
  | none =>
    simp only
    split
    · exact .inr (by simp [escapeUnicode])
    · rename_i hext
      split
      · rename_i hprint
        refine .inl ⟨rfl, ⟨hletter, hprint⟩, ?_⟩
        rintro rfl
        simpa using hext
      · exact .inr (by simp [escapeUnicode])

theorem length_le_flatMap_escapeChar (cs : List Char) :
    cs.length ≤ (cs.flatMap (escapeChar U false)).length := by
  induction cs with
  | nil => simp
  | cons c cs ih =>
    rw [List.flatMap_cons, List.length_append, List.length_cons]
    rcases escapeChar_cases (U := U) false c with ⟨h, -⟩ | h
    · rw [h, List.length_singleton]
      omega
    · omega

/-- The rest of a text is written as it is when its characters are plain. -/
theorem flatMap_escapeChar_eq_self_iff {cs : List Char} :
    cs.flatMap (escapeChar U false) = cs ↔ ∀ c ∈ cs, Plain U c := by
  induction cs with
  | nil => simp
  | cons c cs ih =>
    rw [List.flatMap_cons, List.forall_mem_cons, ← ih]
    constructor
    · intro h
      rcases escapeChar_cases (U := U) false c with ⟨hc, hplain, -⟩ | hlong
      · rw [hc] at h
        exact ⟨hplain, (List.cons.inj h).2⟩
      · have hlength := congrArg List.length h
        have hrest := length_le_flatMap_escapeChar (U := U) cs
        rw [List.length_append, List.length_cons] at hlength
        omega
    · rintro ⟨hc, hcs⟩
      have hone : escapeChar U false c = [c] := escapeChar_of_plain hc (by simp)
      rw [hone, hcs]
      rfl

/-- **The texts that are written as they are**: those of plain characters that do not begin with one
that extends another. -/
theorem escapeDebug_eq_self_iff {cs : List Char} : escapeDebug U cs = cs ↔ Normal U cs := by
  cases cs with
  | nil => exact ⟨fun _ => ⟨by simp, by simp⟩, fun _ => rfl⟩
  | cons c cs =>
    rw [escapeDebug]
    constructor
    · intro h
      rcases escapeChar_cases (U := U) true c with ⟨hc, hplain, hfirst⟩ | hlong
      · rw [hc] at h
        have hcs := flatMap_escapeChar_eq_self_iff.mp (List.cons.inj h).2
        exact ⟨List.forall_mem_cons.mpr ⟨hplain, hcs⟩, by simpa using hfirst rfl⟩
      · have hlength := congrArg List.length h
        have hrest := length_le_flatMap_escapeChar (U := U) cs
        rw [List.length_append, List.length_cons] at hlength
        omega
    · rintro ⟨hplain, hhead⟩
      rw [List.forall_mem_cons] at hplain
      rw [escapeChar_of_plain hplain.1 fun _ => hhead c rfl,
        flatMap_escapeChar_eq_self_iff.mpr hplain.2]
      rfl

/-! ### ASCII -/

/-- A character of ASCII that prints and has no escape sequence. -/
def PlainAscii (c : Char) : Prop := escapeLetters.lookup c = none ∧ 32 ≤ c.toNat ∧ c.toNat ≤ 126

instance : DecidablePred PlainAscii := fun _ => inferInstanceAs (Decidable (_ ∧ _))

/-- **A text of such characters is written as it is**, whatever the tables say of the others. -/
theorem normal_of_ascii {cs : List Char} (h : ∀ c ∈ cs, PlainAscii c) : Normal U cs where
  plain c hc := ⟨(h c hc).1, (U.ascii c (h c hc).2.1 (h c hc).2.2).1⟩
  head c hc :=
    have hc := h c (List.mem_of_mem_head? hc)
    (U.ascii c hc.2.1 hc.2.2).2

theorem forall_plainAscii {cs : List Char} (h : cs.all (fun c => decide (PlainAscii c)) = true) :
    ∀ c ∈ cs, PlainAscii c :=
  fun c hc => of_decide_eq_true (List.all_eq_true.mp h c hc)

end Cedar
