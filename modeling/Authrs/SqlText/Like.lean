import Mathlib.Data.List.Infix

/-!
# Patterns

The patterns of `LIKE`: `%` stands for any text, `_` for any character, and a backslash takes the
special meaning from the character after it. A pattern that ends with a backslash is no pattern.
`ILIKE` compares characters up to case.

## Main definitions

* `CaseFold`: folding the case of characters
* `PatternItem`, `readPattern`: the items of a pattern
* `matchItems`, `Ilike`: when a text matches
* `Plain`: a text without special characters
* `realize`: a text that matches, taking each special character for something else than itself

## Main results

* `matchItems_chars_any`, `matchItems_any_chars`, `matchItems_any_chars_any`: the patterns of a plain
  text match its prefixes, suffixes and infixes
* `ilike_realize`: the realization of a text matches it
* `plain_of_realize`: a text that its realization is equal to is plain
-/

namespace SqlText

/-- Folding the case of characters; only `%` is folded to what `%` is folded to. -/
structure CaseFold where
  fold : Char → Char
  percent : ∀ c, fold c = fold '%' → c = '%'

/-- An item of a pattern. -/
inductive PatternItem
  | any
  | one
  | char (c : Char)
  deriving DecidableEq

/-- The items of a pattern, unless it ends with the escape character. -/
def readPattern : List Char → Option (List PatternItem)
  | [] => some []
  | c :: p =>
    if c = '%' then (readPattern p).map (.any :: ·)
    else if c = '_' then (readPattern p).map (.one :: ·)
    else if c = '\\' then
      match p with
      | [] => none
      | d :: p => (readPattern p).map (.char d :: ·)
    else (readPattern p).map (.char c :: ·)

/-- The special characters of patterns. -/
def isSpecial (c : Char) : Bool := c = '%' || c = '_' || c = '\\'

/-- A text without special characters. -/
def Plain (v : List Char) : Prop := ∀ c ∈ v, isSpecial c = false

instance Plain.decidable (v : List Char) : Decidable (Plain v) :=
  inferInstanceAs (Decidable (∀ c ∈ v, isSpecial c = false))

section Match

variable (F : CaseFold)

/-- Whether a text matches the items. -/
def matchItems : List PatternItem → List Char → Bool
  | [], t => t.isEmpty
  | .any :: ps, t => t.tails.any (matchItems ps)
  | .one :: _, [] => false
  | .one :: ps, _ :: t => matchItems ps t
  | .char _ :: _, [] => false
  | .char c :: ps, c' :: t => F.fold c = F.fold c' && matchItems ps t

/-- **`ILIKE`**: the text matches the pattern, up to case. -/
def Ilike (pattern text : List Char) : Prop := ∃ ps ∈ readPattern pattern, matchItems F ps text = true

instance Ilike.decidable (pattern text : List Char) : Decidable (Ilike F pattern text) :=
  inferInstanceAs (Decidable (∃ ps ∈ readPattern pattern, matchItems F ps text = true))

/-- The text has the value at its beginning, at its end, or anywhere, up to case. -/
def StartsWith (v t : List Char) : Prop := v.map F.fold <+: t.map F.fold
def EndsWith (v t : List Char) : Prop := v.map F.fold <:+ t.map F.fold
def Contains (v t : List Char) : Prop := v.map F.fold <:+: t.map F.fold

end Match

variable {F : CaseFold} {v t : List Char} {ps : List PatternItem}

/-! ### Plain texts -/

theorem isSpecial_eq_false {c : Char} : isSpecial c = false ↔ c ≠ '%' ∧ c ≠ '_' ∧ c ≠ '\\' := by
  simp [isSpecial, and_assoc]

theorem readPattern_percent (p : List Char) :
    readPattern ('%' :: p) = (readPattern p).map (.any :: ·) := by
  rw [readPattern.eq_def]
  dsimp only
  rw [if_pos rfl]

theorem readPattern_underscore (p : List Char) :
    readPattern ('_' :: p) = (readPattern p).map (.one :: ·) := by
  rw [readPattern.eq_def]
  dsimp only
  rw [if_neg (by decide), if_pos rfl]

theorem readPattern_escape (c : Char) (p : List Char) :
    readPattern ('\\' :: c :: p) = (readPattern p).map (.char c :: ·) := by
  rw [readPattern.eq_def]
  dsimp only
  rw [if_neg (by decide), if_neg (by decide), if_pos rfl]

theorem readPattern_char {c : Char} (hc : isSpecial c = false) (p : List Char) :
    readPattern (c :: p) = (readPattern p).map (.char c :: ·) := by
  obtain ⟨hpercent, hunderscore, hbackslash⟩ := isSpecial_eq_false.mp hc
  rw [readPattern.eq_def]
  dsimp only
  rw [if_neg hpercent, if_neg hunderscore, if_neg hbackslash]

/-- A plain text stands for its characters. -/
theorem readPattern_plain_append (hv : Plain v) (p : List Char) :
    readPattern (v ++ p) = (readPattern p).map (v.map .char ++ ·) := by
  induction v with
  | nil =>
    rw [List.nil_append]
    exact Option.map_id.symm ▸ rfl
  | cons c v ih =>
    obtain ⟨hc, hv⟩ := List.forall_mem_cons.mp hv
    rw [List.cons_append, readPattern_char hc, ih hv, Option.map_map]
    rfl

theorem matchItems_any : matchItems F (.any :: ps) t = true ↔ ∃ u, u <:+ t ∧ matchItems F ps u = true := by
  rw [matchItems, List.any_eq_true]
  simp only [List.mem_tails]

/-- **Characters and what follows them.** -/
theorem matchItems_chars_append :
    matchItems F (v.map .char ++ ps) t = true ↔
      ∃ s u, t = s ++ u ∧ v.map F.fold = s.map F.fold ∧ matchItems F ps u = true := by
  induction v generalizing t with
  | nil =>
    constructor
    · intro h
      exact ⟨[], t, rfl, rfl, h⟩
    · rintro ⟨s, u, rfl, hs, hu⟩
      rw [List.map_nil, eq_comm, List.map_eq_nil_iff] at hs
      subst hs
      exact hu
  | cons c v ih =>
    cases t with
    | nil =>
      constructor
      · intro h
        cases h
      · rintro ⟨s, u, hsu, hs, -⟩
        obtain ⟨rfl, rfl⟩ := List.append_eq_nil_iff.mp hsu.symm
        cases hs
    | cons d t =>
      rw [List.map_cons, List.cons_append, matchItems, Bool.and_eq_true, decide_eq_true_eq, ih]
      constructor
      · rintro ⟨hcd, s, u, rfl, hs, hu⟩
        exact ⟨d :: s, u, rfl, by rw [List.map_cons, List.map_cons, hcd, hs], hu⟩
      · rintro ⟨s, u, hsu, hs, hu⟩
        cases s with
        | nil => cases hs
        | cons e s =>
          obtain ⟨rfl, rfl⟩ := List.cons_eq_cons.mp hsu
          obtain ⟨hcd, hs⟩ := List.cons_eq_cons.mp hs
          exact ⟨hcd, s, u, rfl, hs, hu⟩

/-- A plain text, then anything. -/
theorem matchItems_chars_any :
    matchItems F (v.map .char ++ [PatternItem.any]) t = true ↔ StartsWith F v t := by
  rw [matchItems_chars_append]
  constructor
  · rintro ⟨s, u, rfl, hs, -⟩
    refine ⟨u.map F.fold, ?_⟩
    rw [hs, List.map_append]
  · rintro ⟨r, hr⟩
    obtain ⟨s, u, rfl, hs, -⟩ := List.map_eq_append_iff.mp hr.symm
    refine ⟨s, u, rfl, hs.symm, matchItems_any.mpr ⟨[], List.nil_suffix, rfl⟩⟩

/-- Anything, then a plain text. -/
theorem matchItems_any_chars : matchItems F (.any :: v.map .char) t = true ↔ EndsWith F v t := by
  have hend : ∀ u, matchItems F (v.map .char) u = true ↔ v.map F.fold = u.map F.fold := by
    intro u
    have happend := @matchItems_chars_append F v u []
    rw [List.append_nil] at happend
    rw [happend]
    constructor
    · rintro ⟨s, u, rfl, hs, hu⟩
      rw [List.isEmpty_iff.mp hu, List.append_nil, hs]
    · intro h
      exact ⟨u, [], (List.append_nil u).symm, h, rfl⟩
  rw [matchItems_any]
  constructor
  · rintro ⟨u, ⟨r, rfl⟩, hu⟩
    refine ⟨r.map F.fold, ?_⟩
    rw [(hend u).mp hu, List.map_append]
  · rintro ⟨r, hr⟩
    obtain ⟨s, u, rfl, -, hu⟩ := List.map_eq_append_iff.mp hr.symm
    exact ⟨u, List.suffix_append s u, (hend u).mpr hu.symm⟩

/-- Anything, a plain text, and anything. -/
theorem matchItems_any_chars_any :
    matchItems F (.any :: (v.map .char ++ [PatternItem.any])) t = true ↔ Contains F v t := by
  rw [matchItems_any]
  constructor
  · rintro ⟨u, ⟨r, rfl⟩, hu⟩
    obtain ⟨q, hq⟩ := matchItems_chars_any.mp hu
    refine ⟨r.map F.fold, q, ?_⟩
    rw [List.append_assoc, hq, List.map_append]
  · rintro ⟨r, q, hr⟩
    rw [List.append_assoc] at hr
    obtain ⟨s, u, rfl, -, hu⟩ := List.map_eq_append_iff.mp hr.symm
    exact ⟨u, List.suffix_append s u, matchItems_chars_any.mpr ⟨q, hu.symm⟩⟩

theorem ilike_iff_of_readPattern {p : List Char} (hp : readPattern p = some ps) :
    Ilike F p t ↔ matchItems F ps t = true := by
  unfold Ilike
  rw [hp]
  simp

/-- **The patterns of a plain text** match what begins with it, ends with it and contains it. -/
theorem ilike_plain (hv : Plain v) :
    (Ilike F (v ++ ['%']) t ↔ StartsWith F v t) ∧ (Ilike F ('%' :: v) t ↔ EndsWith F v t) ∧
      (Ilike F ('%' :: (v ++ ['%'])) t ↔ Contains F v t) := by
  have hend : readPattern (v ++ ['%']) = some (v.map .char ++ [PatternItem.any]) := by
    rw [readPattern_plain_append hv]
    rfl
  have hchars : readPattern v = some (v.map .char) := by
    have happend := readPattern_plain_append hv []
    rw [List.append_nil] at happend
    rw [happend]
    exact congrArg some (List.append_nil _)
  refine ⟨?_, ?_, ?_⟩
  · rw [ilike_iff_of_readPattern hend, matchItems_chars_any]
  · have hp : readPattern ('%' :: v) = some (.any :: v.map .char) := by
      rw [readPattern_percent, hchars]
      rfl
    rw [ilike_iff_of_readPattern hp, matchItems_any_chars]
  · have hp : readPattern ('%' :: (v ++ ['%'])) =
        some (.any :: (v.map .char ++ [PatternItem.any])) := by
      rw [readPattern_percent, hend]
      rfl
    rw [ilike_iff_of_readPattern hp, matchItems_any_chars_any]

/-! ### Special characters -/

/-- A text that matches the value as a pattern: nothing for `%`, a `%` for `_`, and what is escaped
for a backslash, which may be a `%` that follows the value. -/
def realize : List Char → List Char
  | [] => []
  | c :: v =>
    if c = '%' then realize v
    else if c = '_' then '%' :: realize v
    else if c = '\\' then
      match v with
      | [] => ['%']
      | d :: v => d :: realize v
    else c :: realize v

theorem matchItems_any_of_nil (h : matchItems F ps t = true) : matchItems F (.any :: ps) t = true :=
  matchItems_any.mpr ⟨t, List.suffix_refl t, h⟩

/-- **The realization matches** the value with a `%` after it. -/
theorem ilike_realize (v : List Char) : Ilike F (v ++ ['%']) (realize v) := by
  fun_induction realize v with
  | case1 => exact ⟨_, rfl, rfl⟩
  | case2 v ih =>
    obtain ⟨ps, hps, hmatch⟩ := ih
    refine ⟨.any :: ps, ?_, matchItems_any_of_nil hmatch⟩
    rw [List.cons_append, readPattern_percent, Option.mem_def.mp hps]
    rfl
  | case3 v hc ih =>
    obtain ⟨ps, hps, hmatch⟩ := ih
    refine ⟨.one :: ps, ?_, hmatch⟩
    rw [List.cons_append, readPattern_underscore, Option.mem_def.mp hps]
    rfl
  | case4 => exact ⟨[.char '%'], rfl, by simp [matchItems]⟩
  | case5 d v hc hc' ih =>
    obtain ⟨ps, hps, hmatch⟩ := ih
    refine ⟨.char d :: ps, ?_, by simp [matchItems, hmatch]⟩
    rw [List.cons_append, List.cons_append, readPattern_escape, Option.mem_def.mp hps]
    rfl
  | case6 c v hc hc' hc'' ih =>
    obtain ⟨ps, hps, hmatch⟩ := ih
    refine ⟨.char c :: ps, ?_, by simp [matchItems, hmatch]⟩
    rw [List.cons_append, readPattern_char (isSpecial_eq_false.mpr ⟨hc, hc', hc''⟩),
      Option.mem_def.mp hps]
    rfl

/-- A realization is no longer than the value. -/
theorem length_realize_le (v : List Char) : (realize v).length ≤ v.length := by
  fun_induction realize v <;> simp only [List.length_cons, List.length_nil] <;> omega

/-- **A value that is equal to its realization is plain.** -/
theorem plain_of_realize (h : v.map F.fold = (realize v).map F.fold) : Plain v := by
  fun_induction realize v with
  | case1 => exact List.forall_mem_nil _
  | case2 v ih =>
    have hlen := congrArg List.length h
    have hle := length_realize_le v
    rw [List.length_map, List.length_map, List.length_cons] at hlen
    omega
  | case3 v hc ih =>
    obtain ⟨hfold, -⟩ := List.cons_eq_cons.mp h
    exact absurd (F.percent _ hfold) hc
  | case4 hc hc' =>
    obtain ⟨hfold, -⟩ := List.cons_eq_cons.mp h
    exact absurd (F.percent _ hfold) hc
  | case5 d v hc hc' ih =>
    have hlen := congrArg List.length h
    have hle := length_realize_le v
    rw [List.length_map, List.length_map, List.length_cons, List.length_cons,
      List.length_cons] at hlen
    omega
  | case6 c v hc hc' hc'' ih =>
    obtain ⟨-, htail⟩ := List.cons_eq_cons.mp h
    exact List.forall_mem_cons.mpr ⟨isSpecial_eq_false.mpr ⟨hc, hc', hc''⟩, ih htail⟩

/-- A value contained in its realization is plain. -/
theorem plain_of_contains (h : Contains F v (realize v)) : Plain v := by
  refine plain_of_realize (h.eq_of_length_le ?_)
  rw [List.length_map, List.length_map]
  exact length_realize_le v

/-- **When the pattern of a value is literal**: exactly for plain values. -/
theorem ilike_starts_iff : (∀ t, Ilike F (v ++ ['%']) t ↔ StartsWith F v t) ↔ Plain v := by
  constructor
  · intro h
    exact plain_of_contains ((h _).mp (ilike_realize v)).isInfix
  · intro hv t
    exact (ilike_plain hv).1

theorem ilike_contains_iff : (∀ t, Ilike F ('%' :: (v ++ ['%'])) t ↔ Contains F v t) ↔ Plain v := by
  constructor
  · intro h
    obtain ⟨ps, hps, hmatch⟩ := ilike_realize (F := F) v
    refine plain_of_contains ((h _).mp ⟨.any :: ps, ?_, matchItems_any_of_nil hmatch⟩)
    rw [readPattern_percent, Option.mem_def.mp hps]
    rfl
  · intro hv t
    exact (ilike_plain hv).2.2

/-- A pattern that can be read matches its realization. -/
theorem ilike_realize_of_readPattern (h : readPattern v ≠ none) : Ilike F v (realize v) := by
  fun_induction realize v with
  | case1 => exact ⟨_, rfl, rfl⟩
  | case2 v ih =>
    rw [readPattern_percent, ne_eq, Option.map_eq_none_iff] at h
    obtain ⟨ps, hps, hmatch⟩ := ih h
    refine ⟨.any :: ps, ?_, matchItems_any_of_nil hmatch⟩
    rw [readPattern_percent, Option.mem_def.mp hps]
    rfl
  | case3 v hc ih =>
    rw [readPattern_underscore, ne_eq, Option.map_eq_none_iff] at h
    obtain ⟨ps, hps, hmatch⟩ := ih h
    refine ⟨.one :: ps, ?_, hmatch⟩
    rw [readPattern_underscore, Option.mem_def.mp hps]
    rfl
  | case4 => exact absurd rfl h
  | case5 d v hc hc' ih =>
    rw [readPattern_escape, ne_eq, Option.map_eq_none_iff] at h
    obtain ⟨ps, hps, hmatch⟩ := ih h
    refine ⟨.char d :: ps, ?_, by simp [matchItems, hmatch]⟩
    rw [readPattern_escape, Option.mem_def.mp hps]
    rfl
  | case6 c v hc hc' hc'' ih =>
    have hchar := isSpecial_eq_false.mpr ⟨hc, hc', hc''⟩
    rw [readPattern_char hchar, ne_eq, Option.map_eq_none_iff] at h
    obtain ⟨ps, hps, hmatch⟩ := ih h
    refine ⟨.char c :: ps, ?_, by simp [matchItems, hmatch]⟩
    rw [readPattern_char hchar, Option.mem_def.mp hps]
    rfl

theorem ilike_ends_iff : (∀ t, Ilike F ('%' :: v) t ↔ EndsWith F v t) ↔ Plain v := by
  constructor
  · intro h
    have hread : readPattern v ≠ none := by
      -- otherwise the pattern has no matches, not even the value itself
      intro hnone
      obtain ⟨ps, hps, -⟩ := (h v).mpr (List.suffix_refl _)
      rw [readPattern_percent, hnone] at hps
      cases hps
    obtain ⟨ps, hps, hmatch⟩ := ilike_realize_of_readPattern (F := F) hread
    refine plain_of_contains ((h _).mp ⟨.any :: ps, ?_, matchItems_any_of_nil hmatch⟩).isInfix
    rw [readPattern_percent, Option.mem_def.mp hps]
    rfl
  · intro hv t
    exact (ilike_plain hv).2.1

end SqlText
