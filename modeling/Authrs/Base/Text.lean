import Mathlib.Data.List.Basic
import Mathlib.Tactic.NormNum

/-!
# Text, identifiers and instants

The values the program is made of: strings with the operations the source applies to them, UUIDs
with their hyphenated text, and instants. An instant is a number of microseconds since the epoch,
the resolution of the database.

## Main definitions

* `isWhitespace`, `trim`, `nonEmptyTrimmed`: `char::is_whitespace`, `str::trim`, and the
  `map(trim).filter(!is_empty)` chain of the handlers
* `splitOnce`, `rsplitOnce`, `trimStartMatches`, `dropStart`, `splitChar`, `joinStr`: their
  namesakes on `str`; `dropStart` is `strip_prefix`
* `Uuid`, `Uuid.hyphenated`: 128-bit identifiers and their canonical text
* `varchar n`: the assignment of a text to a `VARCHAR(n)` column
* `Time`, `minutes`, `seconds`: instants and durations

## Main results

* `splitOnce_eq_some`: what a text split at its first separator looks like
* `joinStr_inj`: pieces without the separator are determined by their join
* `Uuid.hyphenated_injective`: distinct identifiers have distinct texts
-/

namespace Authrs

/-- `char::is_whitespace`: the Unicode `White_Space` property. -/
def isWhitespace (c : Char) : Bool :=
  let n := c.toNat
  (9 ≤ n && n ≤ 13) || n == 0x20 || n == 0x85 || n == 0xA0 || n == 0x1680 ||
    (0x2000 ≤ n && n ≤ 0x200A) || n == 0x2028 || n == 0x2029 || n == 0x202F || n == 0x205F ||
    n == 0x3000

/-- `str::trim`. -/
@[irreducible] def trim (s : String) : String :=
  String.ofList (((s.toList.dropWhile isWhitespace).reverse.dropWhile isWhitespace).reverse)

/-- ASCII letters and digits lie between 48 and 122. -/
theorem isWhitespace_of_isAlphanum {c : Char} (h : c.isAlphanum = true) : isWhitespace c = false := by
  have hrange : 48 ≤ c.toNat ∧ c.toNat ≤ 122 := by
    have hchar : ((decide ('A'.val ≤ c.val ∧ c.val ≤ 'Z'.val) ||
        (decide ('a'.val ≤ c.val) && decide (c.val ≤ 'z'.val))) ||
        (decide ('0'.val ≤ c.val) && decide (c.val ≤ '9'.val))) = true := h
    simp only [Bool.or_eq_true, Bool.and_eq_true, decide_eq_true_eq, UInt32.le_iff_toNat_le] at hchar
    rcases hchar with (⟨h, h'⟩ | ⟨h, h'⟩) | ⟨h, h'⟩
    · exact ⟨Nat.le_trans (by decide) h, Nat.le_trans h' (by decide)⟩
    · exact ⟨Nat.le_trans (by decide) h, Nat.le_trans h' (by decide)⟩
    · exact ⟨Nat.le_trans (by decide) h, Nat.le_trans h' (by decide)⟩
  simp only [isWhitespace, Bool.or_eq_false_iff, Bool.and_eq_false_iff, decide_eq_false_iff_not,
    beq_eq_false_iff_ne]
  omega

theorem dropWhile_of_head? {α : Type} {p : α → Bool} {l : List α} (h : ∀ a ∈ l.head?, p a = false) :
    l.dropWhile p = l := by
  cases l with
  | nil => rfl
  | cons a l =>
    apply List.dropWhile_cons_of_neg
    rw [h a rfl]
    exact Bool.false_ne_true

/-- A text whose ends are not blank stays as it is. -/
theorem trim_eq_self {s : String} (hhead : ∀ c ∈ s.toList.head?, isWhitespace c = false)
    (hlast : ∀ c ∈ s.toList.getLast?, isWhitespace c = false) : trim s = s := by
  have hlast' : ∀ c ∈ s.toList.reverse.head?, isWhitespace c = false := by
    rw [List.head?_reverse]
    exact hlast
  unfold trim
  rw [dropWhile_of_head? hhead, dropWhile_of_head? hlast', List.reverse_reverse, String.ofList_toList]

/-- What is trimmed does not end with a blank. -/
theorem getLast?_trim (s : String) : ∀ c ∈ (trim s).toList.getLast?, isWhitespace c = false := by
  intro c hc
  unfold trim at hc
  rw [String.toList_ofList, List.getLast?_reverse] at hc
  have hnot := List.head?_dropWhile_not isWhitespace (s.toList.dropWhile isWhitespace).reverse
  rw [hc] at hnot
  exact hnot

/-- `opt.map(|s| s.trim()).filter(|s| !s.is_empty())`. -/
def nonEmptyTrimmed (s : Option String) : Option String :=
  (s.map trim).filter (· ≠ "")

/-- The text before and after the first `c`. -/
def splitOnceList (c : Char) : List Char → Option (List Char × List Char)
  | [] => none
  | d :: ds =>
    if d = c then some ([], ds) else (splitOnceList c ds).map fun p => (d :: p.1, p.2)

/-- `str::split_once`. -/
def splitOnce (s : String) (c : Char) : Option (String × String) :=
  (splitOnceList c s.toList).map fun p => (String.ofList p.1, String.ofList p.2)

/-- `str::rsplit_once`. -/
def rsplitOnce (s : String) (c : Char) : Option (String × String) :=
  (splitOnceList c s.toList.reverse).map fun p =>
    (String.ofList p.2.reverse, String.ofList p.1.reverse)

/-- `str::trim_start_matches` of a character. -/
def trimStartMatches (s : String) (c : Char) : String :=
  String.ofList (s.toList.dropWhile (· == c))

/-- Drop a text as often as it stands at the front, at most `n` times. -/
def dropPrefixes (pat : List Char) : (n : Nat) → List Char → List Char
  | 0, l => l
  | n + 1, l => if pat.isPrefixOf l then dropPrefixes pat n (l.drop pat.length) else l

/-- `str::trim_start_matches` of a text. -/
def trimStartMatchesStr (s pat : String) : String :=
  String.ofList (dropPrefixes pat.toList s.toList.length s.toList)

/-- `str::strip_prefix`. -/
def dropStart (start s : String) : Option String :=
  (s.toList.dropPrefix? start.toList).map String.ofList

/-- `str::split` at a character. -/
def splitChar (s : String) (c : Char) : List String :=
  (s.toList.splitOn c).map String.ofList

/-- `[&str]::join`. -/
def joinStr (parts : List String) (c : Char) : String :=
  String.ofList ([c].intercalate (parts.map String.toList))

theorem dropStart_append (start rest : String) : dropStart start (start ++ rest) = some rest := by
  rw [dropStart, String.toList_append, List.dropPrefix?_append_of_beq _ (beq_self_eq_true _),
    Option.map_some, String.ofList_toList]

theorem splitOnceList_eq_some {c : Char} {l a b : List Char} :
    splitOnceList c l = some (a, b) ↔ l = a ++ c :: b ∧ c ∉ a := by
  induction l generalizing a with
  | nil => simp [splitOnceList]
  | cons d ds ih =>
    rw [splitOnceList]
    split
    · next hd =>
      subst hd
      cases a with
      | nil => simp [eq_comm]
      | cons x xs =>
        simp only [Option.some.injEq, Prod.mk.injEq, List.cons_append, List.cons.injEq]
        constructor
        · rintro ⟨h, -⟩
          exact absurd h (by simp)
        · rintro ⟨⟨rfl, -⟩, hn⟩
          exact absurd List.mem_cons_self hn
    · next hd =>
      cases a with
      | nil => simp [hd]
      | cons x xs =>
        simp only [Option.map_eq_some_iff, Prod.mk.injEq, Prod.exists, List.cons_append,
          List.cons.injEq, List.mem_cons, not_or]
        constructor
        · rintro ⟨a', b', h, ⟨rfl, rfl⟩, rfl⟩
          obtain ⟨rfl, hn⟩ := ih.mp h
          exact ⟨⟨rfl, rfl⟩, fun h => hd h.symm, hn⟩
        · rintro ⟨⟨rfl, rfl⟩, -, hn⟩
          exact ⟨xs, b, ih.mpr ⟨rfl, hn⟩, ⟨rfl, rfl⟩, rfl⟩

theorem splitOnceList_eq_none {c : Char} {l : List Char} :
    splitOnceList c l = none ↔ c ∉ l := by
  induction l with
  | nil => simp [splitOnceList]
  | cons d ds ih =>
    rw [splitOnceList]
    split
    · next hd => simp [hd]
    · next hd => simp [ih, Ne.symm hd]

/-- A text splits at its first separator. -/
theorem splitOnce_eq_some {s a b : String} {c : Char} :
    splitOnce s c = some (a, b) ↔ s.toList = a.toList ++ c :: b.toList ∧ c ∉ a.toList := by
  simp only [splitOnce, Option.map_eq_some_iff, Prod.mk.injEq, Prod.exists]
  constructor
  · rintro ⟨x, y, h, rfl, rfl⟩
    simpa using splitOnceList_eq_some.mp h
  · intro h
    exact ⟨a.toList, b.toList, splitOnceList_eq_some.mpr h, by simp, by simp⟩

theorem splitOnce_eq_none {s : String} {c : Char} : splitOnce s c = none ↔ c ∉ s.toList := by
  simp [splitOnce, splitOnceList_eq_none]

theorem splitChar_ne_nil (s : String) (c : Char) : splitChar s c ≠ [] := by
  simp [splitChar]

/-- The pieces of a text do not contain the separator. -/
theorem notMem_splitOn {c : Char} {l : List Char} : ∀ p ∈ l.splitOn c, c ∉ p := by
  induction l with
  | nil => simp
  | cons d l ih =>
    rw [List.splitOn_cons_eq_if_modifyHead]
    split
    · exact List.forall_mem_cons.mpr ⟨List.not_mem_nil, ih⟩
    · rename_i hd
      have hcd : c ≠ d := fun h => hd (by rw [h, beq_self_eq_true])
      cases hsplit : l.splitOn c with
      | nil => exact absurd hsplit (List.splitOn_ne_nil c l)
      | cons p ps =>
        rw [hsplit, List.forall_mem_cons] at ih
        rw [List.modifyHead_cons, List.forall_mem_cons]
        refine ⟨?_, ih.2⟩
        rw [List.mem_cons, not_or]
        exact ⟨hcd, ih.1⟩

theorem notMem_splitChar {s : String} {c : Char} : ∀ p ∈ splitChar s c, c ∉ p.toList := by
  intro p hp
  obtain ⟨l, hl, rfl⟩ := List.mem_map.mp hp
  rw [String.toList_ofList]
  exact notMem_splitOn l hl

/-- A text is its pieces, joined. -/
theorem joinStr_splitChar (s : String) (c : Char) : joinStr (splitChar s c) c = s := by
  have hpieces : (splitChar s c).map String.toList = s.toList.splitOn c := by
    simp [splitChar, Function.comp_def]
  rw [joinStr, hpieces, List.intercalate_splitOn, String.ofList_toList]

/-- Pieces without the separator are the pieces of their join. -/
theorem splitChar_joinStr {parts : List String} {c : Char} (hne : parts ≠ [])
    (h : ∀ p ∈ parts, c ∉ p.toList) : splitChar (joinStr parts c) c = parts := by
  have hpieces : ∀ l ∈ parts.map String.toList, c ∉ l := by
    intro l hl
    obtain ⟨p, hp, rfl⟩ := List.mem_map.mp hl
    exact h p hp
  rw [splitChar, joinStr, String.toList_ofList,
    List.splitOn_intercalate c hpieces (by simpa using hne)]
  simp [Function.comp_def]

/-- **Pieces without the separator are determined by their join.** -/
theorem joinStr_inj {parts parts' : List String} {c : Char} (hne : parts ≠ []) (hne' : parts' ≠ [])
    (h : ∀ p ∈ parts, c ∉ p.toList) (h' : ∀ p ∈ parts', c ∉ p.toList) :
    joinStr parts c = joinStr parts' c ↔ parts = parts' := by
  constructor
  · intro heq
    rw [← splitChar_joinStr hne h, heq, splitChar_joinStr hne' h']
  · exact congrArg fun ps => joinStr ps c

/-! ### UUIDs -/

/-- A UUID. -/
abbrev Uuid : Type := BitVec 128

/-- A lower-case hexadecimal digit. -/
def hexDigit (n : Nat) : Char :=
  if n < 10 then Char.ofNat ('0'.toNat + n) else Char.ofNat ('a'.toNat + (n - 10))

/-- The last `width` hexadecimal digits of `n`, most significant first. -/
def hexDigits (n : Nat) : (width : Nat) → List Char
  | 0 => []
  | width + 1 => hexDigits (n / 16) width ++ [hexDigit (n % 16)]

/-- The canonical text of a UUID: 32 lower-case digits in groups of 8, 4, 4, 4 and 12. -/
def Uuid.hyphenated (u : Uuid) : String :=
  let n := u.toNat
  String.ofList (hexDigits (n / 16 ^ 24) 8 ++ '-' :: hexDigits (n / 16 ^ 20) 4 ++
    '-' :: hexDigits (n / 16 ^ 16) 4 ++ '-' :: hexDigits (n / 16 ^ 12) 4 ++
    '-' :: hexDigits n 12)

theorem hexDigits_length (n width : Nat) : (hexDigits n width).length = width := by
  induction width generalizing n with
  | zero => rfl
  | succ width ih => simp [hexDigits, ih]

theorem hexDigit_injOn {m n : Nat} (hm : m < 16) (hn : n < 16)
    (h : hexDigit m = hexDigit n) : m = n := by
  have all : ∀ a b : Fin 16, hexDigit a = hexDigit b → a = b := by decide
  exact congrArg Fin.val (all ⟨m, hm⟩ ⟨n, hn⟩ h)

theorem hexDigits_inj {m n width : Nat} (h : hexDigits m width = hexDigits n width) :
    m % 16 ^ width = n % 16 ^ width := by
  induction width generalizing m n with
  | zero => simp [Nat.mod_one]
  | succ width ih =>
    obtain ⟨hhi, hlo⟩ := List.append_inj' h rfl
    have hlo' : m % 16 = n % 16 :=
      hexDigit_injOn (Nat.mod_lt _ (by omega)) (Nat.mod_lt _ (by omega)) (List.singleton_inj.mp hlo)
    have hhi' := ih hhi
    rw [pow_succ', Nat.mod_mul, Nat.mod_mul, hlo', hhi']

theorem forall_hexDigits {P : Char → Prop} (h : ∀ d, d < 16 → P (hexDigit d)) (n width : Nat) :
    ∀ c ∈ hexDigits n width, P c := by
  induction width generalizing n with
  | zero => exact List.forall_mem_nil _
  | succ width ih =>
    rw [hexDigits, List.forall_mem_append, List.forall_mem_singleton]
    exact ⟨ih _, h _ (Nat.mod_lt _ (by omega))⟩

/-- The text of a UUID has digits, letters and hyphens. -/
theorem Uuid.hyphenated_chars (u : Uuid) {P : Char → Prop} (hdigit : ∀ n, n < 16 → P (hexDigit n))
    (hhyphen : P '-') : ∀ c ∈ u.hyphenated.toList, P c := by
  have hdigits := fun width n => forall_hexDigits hdigit n width
  simp only [hyphenated, String.toList_ofList, List.forall_mem_append, List.forall_mem_cons]
  exact ⟨⟨⟨⟨hdigits 8 _, hhyphen, hdigits 4 _⟩, hhyphen, hdigits 4 _⟩, hhyphen, hdigits 4 _⟩,
    hhyphen, hdigits 12 _⟩

@[simp] theorem Uuid.length_hyphenated (u : Uuid) : u.hyphenated.toList.length = 36 := by
  simp [Uuid.hyphenated, hexDigits_length]

/-- **Distinct identifiers have distinct texts.** -/
theorem Uuid.hyphenated_injective : Function.Injective Uuid.hyphenated := by
  intro u v h
  have h' := congrArg String.toList h
  simp only [Uuid.hyphenated, String.toList_ofList, List.append_assoc, List.cons_append] at h'
  obtain ⟨h1, h'⟩ := List.append_inj h' (by simp [hexDigits_length])
  obtain ⟨h2, h'⟩ := List.append_inj (List.cons.inj h').2 (by simp [hexDigits_length])
  obtain ⟨h3, h'⟩ := List.append_inj (List.cons.inj h').2 (by simp [hexDigits_length])
  obtain ⟨h4, h'⟩ := List.append_inj (List.cons.inj h').2 (by simp [hexDigits_length])
  have h5 := (List.cons.inj h').2
  have e1 := hexDigits_inj h1
  have e2 := hexDigits_inj h2
  have e3 := hexDigits_inj h3
  have e4 := hexDigits_inj h4
  have e5 := hexDigits_inj h5
  have hu := u.isLt
  have hv := v.isLt
  apply BitVec.eq_of_toNat_eq
  norm_num at *
  omega

/-! ### Columns and instants -/

/-- Assigning a text to a `VARCHAR(n)` column: characters beyond the limit are dropped when they
are all blanks, and rejected otherwise. -/
def varchar (n : Nat) (s : String) : Option String :=
  if s.toList.length ≤ n then some s
  else if (s.toList.drop n).all (· == ' ') then some (String.ofList (s.toList.take n))
  else none

theorem varchar_of_le {n : Nat} {s : String} (h : s.toList.length ≤ n) : varchar n s = some s :=
  if_pos h

/-- What a column holds fits it. -/
theorem varchar_idem {n : Nat} {s t : String} (h : varchar n s = some t) : varchar n t = some t := by
  unfold varchar at h
  apply varchar_of_le
  split at h
  · next hlen =>
    cases h
    exact hlen
  · split at h
    · cases h
      rw [String.toList_ofList, List.length_take]
      omega
    · cases h

/-- An instant: microseconds since the epoch. -/
abbrev Time : Type := Int

/-- `chrono::Duration::seconds`. -/
def seconds (n : Int) : Int := n * 1000000

/-- `chrono::Duration::minutes`. -/
def minutes (n : Int) : Int := seconds (n * 60)

/-- A text that does not end with a blank fits or is rejected. -/
theorem varchar_of_last {n : Nat} {s t : String} (h : varchar n s = some t)
    (hs : ∀ c ∈ s.toList.getLast?, c ≠ ' ') : t = s := by
  unfold varchar at h
  split at h
  · exact (Option.some.inj h).symm
  · rename_i hlen
    split at h
    · rename_i hblank
      -- Something is dropped, and its last character is not a blank.
      have hne : s.toList.drop n ≠ [] := fun hnil => hlen (List.drop_eq_nil_iff.mp hnil)
      have hlast : (s.toList.drop n).getLast hne ∈ s.toList.getLast? := by
        rw [List.getLast_drop]
        exact List.getLast?_eq_getLast_of_ne_nil _
      have hblank' := List.all_eq_true.mp hblank _ (List.getLast_mem hne)
      exact absurd (beq_iff_eq.mp hblank') (hs _ hlast)
    · cases h

theorem varchar_of_no_blank {n : Nat} {s t : String} (h : varchar n s = some t)
    (hs : ' ' ∉ s.toList) : t = s := by
  refine varchar_of_last h fun c hc heq => hs ?_
  rw [← heq]
  exact List.mem_of_getLast? hc

/-! ### Tenant ids -/

/-- `char::is_ascii_digit` and `char::is_ascii_lowercase`. -/
def isAsciiDigit (c : Char) : Bool := '0' ≤ c && c ≤ '9'
def isAsciiLowercase (c : Char) : Bool := 'a' ≤ c && c ≤ 'z'

/-- Lower snake_case: starts with lowercase letter, then [a-z0-9_]*. -/
def isLowerSnakeCase (s : String) : Bool :=
  match s.toList with
  | [] => false
  | c :: cs =>
    isAsciiLowercase c && cs.all fun c => isAsciiLowercase c || isAsciiDigit c || c == '_'

/-- A tenant id that has passed the check of the `X-Tenant-ID` header. -/
structure TenantId where
  val : String
  lowerSnakeCase : isLowerSnakeCase val = true

namespace TenantId

/-- `TenantId::from_request_parts`, on the text of the header. -/
def ofHeader (header : Option String) : Except String TenantId :=
  match header with
  | none => .error "Missing X-Tenant-ID header"
  | some value =>
    if trim value = "" then .error "X-Tenant-ID must be non-empty"
    else if h : isLowerSnakeCase (trim value) = true then .ok ⟨trim value, h⟩
    else .error "X-Tenant-ID must be lower snake_case (e.g. my_tenant)"

theorem blank_notMem (T : TenantId) : ' ' ∉ T.val.toList := by
  obtain ⟨s, hs⟩ := T
  unfold isLowerSnakeCase at hs
  split at hs
  · cases hs
  · rename_i c cs heq
    simp only [Bool.and_eq_true, List.all_eq_true] at hs
    rw [heq]
    intro hmem
    rcases List.mem_cons.mp hmem with hc | hc
    · rw [← hc] at hs
      exact absurd hs.1 (by decide)
    · exact absurd (hs.2 _ hc) (by decide)

end TenantId

end Authrs
