import Authrs.Base.AsciiCase
import Mathlib.Data.List.Induction

/-!
# The texts of a UUID

A UUID is read from its 32 hexadecimal digits, bare or in groups with hyphens between them; the
groups may stand in braces or after `urn:uuid:`. The digits may be capitals. So a UUID has four
texts up to case, and their lengths tell them apart.

## Main definitions

* `Uuid.parseStr`: its namesake in the `uuid` crate

## Main results

* `Uuid.eqIgnoreAsciiCase_iff`: texts of one UUID are equal up to case when they have one length
* `Uuid.parseStr_hyphenated`: the canonical text denotes the UUID
-/

namespace Authrs

/-! ### Digits -/

/-- The value of a hexadecimal digit. -/
def hexValue (c : Char) : Option Nat :=
  let n := c.toNat
  if 48 ≤ n ∧ n ≤ 57 then some (n - 48)
  else if 97 ≤ n ∧ n ≤ 102 then some (n - 87)
  else if 65 ≤ n ∧ n ≤ 70 then some (n - 55)
  else none

/-- The number that the digits write. -/
def readHex (cs : List Char) : Option Nat :=
  cs.foldlM (fun n c => (hexValue c).map (16 * n + ·)) 0

theorem hexDigit_toNat {d : Nat} (hd : d < 16) :
    (hexDigit d).toNat = if d < 10 then 48 + d else 87 + d := by
  have all : ∀ d : Fin 16, (hexDigit d).toNat = if d.val < 10 then 48 + d.val else 87 + d.val := by
    decide
  exact all ⟨d, hd⟩

/-- **A character has a value when its small letter is the digit of that value.** -/
theorem hexValue_eq_some {c : Char} {d : Nat} :
    hexValue c = some d ↔ d < 16 ∧ c.toLower = hexDigit d := by
  rw [hexValue]
  constructor
  · intro h
    have hd : d < 16 := by
      split_ifs at h <;> injection h <;> omega
    refine ⟨hd, ?_⟩
    rw [char_eq_iff_toNat, hexDigit_toNat hd, toNat_toLower_eq]
    split_ifs at h ⊢ <;> injection h <;> omega
  · rintro ⟨hd, h⟩
    rw [char_eq_iff_toNat, hexDigit_toNat hd, toNat_toLower_eq] at h
    split_ifs at h ⊢ <;> first | omega | exact congrArg some (by omega)

theorem readHex_append_singleton (cs : List Char) (c : Char) :
    readHex (cs ++ [c]) = (readHex cs).bind fun m => (hexValue c).map (16 * m + ·) := by
  simp [readHex, List.foldlM_append]

/-- **Digits are read as a number when their small letters write it.** -/
theorem readHex_eq_some {cs : List Char} {n : Nat} :
    readHex cs = some n ↔ n < 16 ^ cs.length ∧ cs.map Char.toLower = hexDigits n cs.length := by
  induction cs using List.reverseRecOn generalizing n with
  | nil =>
    simp [readHex, hexDigits]
    exact eq_comm
  | append_singleton cs c ih =>
    rw [readHex_append_singleton, Option.bind_eq_some_iff, List.length_append, List.length_singleton, List.map_append,
      hexDigits, pow_succ]
    constructor
    · rintro ⟨m, hm, h⟩
      obtain ⟨d, hd, rfl⟩ := Option.map_eq_some_iff.mp h
      obtain ⟨hd, hc⟩ := hexValue_eq_some.mp hd
      obtain ⟨hlt, hcs⟩ := ih.mp hm
      have hdiv : (16 * m + d) / 16 = m := by omega
      have hmod : (16 * m + d) % 16 = d := by omega
      refine ⟨by omega, ?_⟩
      rw [hdiv, hmod, hcs, List.map_singleton, hc]
    · rintro ⟨hlt, h⟩
      obtain ⟨hcs, hc⟩ := List.append_inj' h rfl
      refine ⟨n / 16, ih.mpr ⟨by omega, hcs⟩, Option.map_eq_some_iff.mpr ⟨n % 16, ?_, by omega⟩⟩
      exact hexValue_eq_some.mpr ⟨Nat.mod_lt _ (by omega), List.singleton_inj.mp hc⟩

theorem isSome_readHex {cs : List Char} :
    (readHex cs).isSome = true ↔ ∀ c ∈ cs, (hexValue c).isSome = true := by
  induction cs using List.reverseRecOn with
  | nil => simp [readHex]
  | append_singleton cs c ih =>
    rw [readHex_append_singleton, List.forall_mem_append, List.forall_mem_singleton, ← ih]
    cases readHex cs with
    | none => simp
    | some n => simp

/-! ### The four forms -/

/-- The digits of a text that has them in groups with hyphens between. -/
def hyphenatedDigits (cs : List Char) : Option (List Char) :=
  if (cs.splitOn '-').map List.length = [8, 4, 4, 4, 12] then some (cs.splitOn '-').flatten else none

/-- The digits of a text, whose length tells its form. -/
def uuidDigits (cs : List Char) : Option (List Char) :=
  if cs.length = 32 then some cs
  else if cs.length = 36 then hyphenatedDigits cs
  else if cs.length = 38 ∧ cs.head? = some '\x7b' ∧ cs.getLast? = some '\x7d' then
    hyphenatedDigits (cs.drop 1).dropLast
  else if cs.length = 45 ∧ cs.take 9 = "urn:uuid:".toList then hyphenatedDigits (cs.drop 9)
  else none

/-- `Uuid::parse_str`. -/
def Uuid.parseStr (s : String) : Option Uuid :=
  ((uuidDigits s.toList).bind readHex).map (BitVec.ofNat 128)

theorem splitOn_toLower {d : Char} (hd : d.toNat < 65) (l : List Char) :
    (l.map Char.toLower).splitOn d = (l.splitOn d).map (List.map Char.toLower) := by
  induction l with
  | nil => rfl
  | cons c l ih =>
    rw [List.map_cons, List.splitOn_cons_eq_if_modifyHead, List.splitOn_cons_eq_if_modifyHead, ih]
    by_cases hc : c = d
    · rw [if_pos (by simpa using (toLower_eq_iff hd).mpr hc), if_pos (by simpa using hc)]
      rfl
    · rw [if_neg (by simpa using fun h => hc ((toLower_eq_iff hd).mp h)), if_neg (by simpa using hc)]
      cases l.splitOn d with
      | nil => rfl
      | cons p ps => rfl

/-- The groups of the small letters. -/
theorem hyphenatedDigits_toLower (cs : List Char) :
    hyphenatedDigits (cs.map Char.toLower) = (hyphenatedDigits cs).map (List.map Char.toLower) := by
  have hlengths : ((cs.splitOn '-').map (List.map Char.toLower)).map List.length =
      (cs.splitOn '-').map List.length := by
    rw [List.map_map]
    exact List.map_congr_left fun l _ => List.length_map _
  rw [hyphenatedDigits, splitOn_toLower (by decide), hlengths, hyphenatedDigits, ← List.map_flatten]
  split <;> rfl

/-- **The digits determine the text.** -/
theorem hyphenatedDigits_inj {cs cs' ds : List Char} (h : hyphenatedDigits cs = some ds)
    (h' : hyphenatedDigits cs' = some ds) : cs = cs' := by
  unfold hyphenatedDigits at h h'
  split_ifs at h h' with hlen hlen'
  have hpieces : cs.splitOn '-' = cs'.splitOn '-' := by
    rw [List.eq_iff_flatten_eq, hlen, hlen', Option.some.inj h, Option.some.inj h']
    exact ⟨rfl, rfl⟩
  have hjoin : ∀ l : List Char, ['-'].intercalate (l.splitOn '-') = l :=
    fun _ => List.intercalate_splitOn '-'
  rw [← hjoin cs, hpieces, hjoin]

theorem length_hyphenatedDigits {cs ds : List Char} (h : hyphenatedDigits cs = some ds) :
    ds.length = 32 := by
  unfold hyphenatedDigits at h
  split_ifs at h with hlen
  rw [← Option.some.inj h, List.length_flatten, hlen]
  rfl

theorem length_uuidDigits {cs ds : List Char} (h : uuidDigits cs = some ds) : ds.length = 32 := by
  unfold uuidDigits at h
  split_ifs at h with hlen
  · rw [← Option.some.inj h, hlen]
  all_goals exact length_hyphenatedDigits h

/-- The digits of the small letters. -/
theorem uuidDigits_toLower {cs ds : List Char} (h : uuidDigits cs = some ds) :
    uuidDigits (cs.map Char.toLower) = some (ds.map Char.toLower) := by
  unfold uuidDigits at h ⊢
  rw [List.length_map]
  split_ifs at h with hsimple hhyphenated hbraced hurn
  · rw [if_pos hsimple, ← Option.some.inj h]
  · rw [if_neg hsimple, if_pos hhyphenated, hyphenatedDigits_toLower, h]
    rfl
  · have hends : (cs.map Char.toLower).head? = some '\x7b' ∧
        (cs.map Char.toLower).getLast? = some '\x7d' := by
      rw [List.head?_map, List.getLast?_map, hbraced.2.1, hbraced.2.2]
      exact ⟨rfl, rfl⟩
    rw [if_neg hsimple, if_neg hhyphenated, if_pos ⟨hbraced.1, hends⟩, ← List.map_drop,
      ← List.map_dropLast, hyphenatedDigits_toLower, h]
    rfl
  · have hstart : (cs.map Char.toLower).take 9 = "urn:uuid:".toList := by
      rw [← List.map_take, hurn.2]
      rfl
    rw [if_neg hsimple, if_neg hhyphenated, if_neg (by omega), if_pos ⟨hurn.1, hstart⟩,
      ← List.map_drop, hyphenatedDigits_toLower, h]
    rfl

/-- A text between its first character and its last. -/
theorem braced_eq {cs : List Char} {a b : Char} (ha : cs.head? = some a) (hb : cs.getLast? = some b)
    (hlen : 2 ≤ cs.length) : a :: ((cs.drop 1).dropLast ++ [b]) = cs := by
  obtain ⟨cs, rfl⟩ := List.head?_eq_some_iff.mp ha
  have hne : cs ≠ [] := by
    rintro rfl
    rw [List.length_singleton] at hlen
    omega
  obtain ⟨init, hinit⟩ := List.getLast?_eq_some_iff.mp hb
  cases init with
  | nil =>
    rw [List.nil_append, List.cons.injEq] at hinit
    exact absurd hinit.2 hne
  | cons c init =>
    rw [List.cons_append, List.cons.injEq] at hinit
    rw [hinit.2, List.drop_one, List.tail_cons, List.dropLast_concat]

/-- **Digits and length determine the text.** -/
theorem uuidDigits_inj {cs cs' ds : List Char} (h : uuidDigits cs = some ds)
    (h' : uuidDigits cs' = some ds) (hlen : cs.length = cs'.length) : cs = cs' := by
  unfold uuidDigits at h h'
  rw [← hlen] at h'
  split_ifs at h with hsimple hhyphenated hbraced hurn
  · rw [if_pos hsimple] at h'
    rw [Option.some.inj h, Option.some.inj h']
  · rw [if_neg hsimple, if_pos hhyphenated] at h'
    exact hyphenatedDigits_inj h h'
  · rw [if_neg hsimple, if_neg hhyphenated] at h'
    split_ifs at h' with hbraced' hurn'
    · have hmid := hyphenatedDigits_inj h h'
      rw [← braced_eq hbraced.2.1 hbraced.2.2 (by omega), hmid,
        braced_eq hbraced'.2.1 hbraced'.2.2 (by omega)]
    · omega
  · rw [if_neg hsimple, if_neg hhyphenated, if_neg (by omega)] at h'
    split_ifs at h' with hurn'
    have hrest := hyphenatedDigits_inj h h'
    rw [← List.take_append_drop 9 cs, hurn.2, hrest, ← hurn'.2, List.take_append_drop]

/-! ### What is read -/

theorem Uuid.parseStr_eq_some {s : String} {u : Uuid} :
    parseStr s = some u ↔
      ∃ ds, uuidDigits s.toList = some ds ∧ ds.map Char.toLower = hexDigits u.toNat 32 := by
  rw [parseStr, Option.map_eq_some_iff]
  constructor
  · rintro ⟨n, hn, rfl⟩
    obtain ⟨ds, hds, hn⟩ := Option.bind_eq_some_iff.mp hn
    obtain ⟨hlt, hlower⟩ := readHex_eq_some.mp hn
    rw [length_uuidDigits hds] at hlt hlower
    refine ⟨ds, hds, ?_⟩
    rw [hlower, BitVec.toNat_ofNat, Nat.mod_eq_of_lt (by omega)]
  · rintro ⟨ds, hds, hlower⟩
    refine ⟨u.toNat, Option.bind_eq_some_iff.mpr ⟨ds, hds, readHex_eq_some.mpr ?_⟩, ?_⟩
    · rw [length_uuidDigits hds]
      exact ⟨by omega, hlower⟩
    · exact BitVec.ofNat_toNat _ _

/-- **A text denotes what its small letters do.** -/
theorem Uuid.parseStr_toLower {s t : String} {u : Uuid} (h : parseStr s = some u)
    (ht : t.toList = s.toList.map Char.toLower) : parseStr t = some u := by
  obtain ⟨ds, hds, hlower⟩ := parseStr_eq_some.mp h
  refine parseStr_eq_some.mpr ⟨ds.map Char.toLower, ?_, ?_⟩
  · rw [ht]
    exact uuidDigits_toLower hds
  · rw [← hlower, List.map_map]
    exact List.map_congr_left fun c _ => toLower_toLower c

/-- **Two texts of one UUID are equal up to case when they have one length.** -/
theorem Uuid.eqIgnoreAsciiCase_iff {s t : String} {u : Uuid} (hs : parseStr s = some u)
    (ht : parseStr t = some u) : EqIgnoreAsciiCase s t ↔ s.toList.length = t.toList.length := by
  constructor
  · intro h
    have hlen := congrArg List.length h
    rwa [List.length_map, List.length_map] at hlen
  · intro hlen
    obtain ⟨ds, hds, hlower⟩ := parseStr_eq_some.mp hs
    obtain ⟨ds', hds', hlower'⟩ := parseStr_eq_some.mp ht
    have hsame := uuidDigits_toLower hds'
    rw [hlower', ← hlower] at hsame
    exact uuidDigits_inj (uuidDigits_toLower hds) hsame (by rwa [List.length_map, List.length_map])

theorem hexDigits_append (n a b : Nat) :
    hexDigits n (a + b) = hexDigits (n / 16 ^ b) a ++ hexDigits n b := by
  induction b generalizing n with
  | zero => simp [hexDigits]
  | succ b ih =>
    rw [Nat.add_succ, hexDigits, ih, hexDigits, List.append_assoc, Nat.div_div_eq_div_mul, pow_succ']

/-- The groups of the canonical text. -/
def Uuid.groups (u : Uuid) : List (List Char) :=
  let n := u.toNat
  [hexDigits (n / 16 ^ 24) 8, hexDigits (n / 16 ^ 20) 4, hexDigits (n / 16 ^ 16) 4,
    hexDigits (n / 16 ^ 12) 4, hexDigits n 12]

theorem Uuid.flatten_groups (u : Uuid) : u.groups.flatten = hexDigits u.toNat 32 := by
  rw [hexDigits_append _ 20 12, hexDigits_append _ 16 4, hexDigits_append _ 12 4,
    hexDigits_append _ 8 4]
  simp only [Nat.div_div_eq_div_mul, groups, List.flatten_cons, List.flatten_nil, List.append_nil,
    List.append_assoc]
  norm_num

theorem Uuid.toList_hyphenated (u : Uuid) : u.hyphenated.toList = ['-'].intercalate u.groups := by
  simp only [hyphenated, groups, String.toList_ofList, List.intercalate, List.intersperse_cons_cons,
    List.intersperse_singleton, List.flatten_cons, List.flatten_nil, List.nil_append,
    List.append_nil, List.append_assoc, List.cons_append]

/-- **The canonical text denotes the UUID.** -/
theorem Uuid.parseStr_hyphenated (u : Uuid) : parseStr u.hyphenated = some u := by
  have hlower : ∀ c ∈ hexDigits u.toNat 32, c.toLower = c := forall_hexDigits (by decide) _ _
  have hnone : ∀ g ∈ u.groups, '-' ∉ g := by
    have hdigits : ∀ n width, '-' ∉ hexDigits n width := fun n width hmem =>
      forall_hexDigits (P := (· ≠ '-')) (by decide) n width _ hmem rfl
    simp only [groups, List.forall_mem_cons]
    exact ⟨hdigits _ _, hdigits _ _, hdigits _ _, hdigits _ _, hdigits _ _, List.forall_mem_nil _⟩
  have hlengths : u.groups.map List.length = [8, 4, 4, 4, 12] := by
    simp [groups, hexDigits_length]
  refine parseStr_eq_some.mpr
    ⟨hexDigits u.toNat 32, ?_, (List.map_congr_left hlower).trans (List.map_id' _)⟩
  rw [uuidDigits, u.length_hyphenated, if_neg (by decide), if_pos rfl, u.toList_hyphenated,
    hyphenatedDigits, List.splitOn_intercalate '-' hnone (by simp [groups]), hlengths, if_pos rfl,
    u.flatten_groups]

end Authrs
