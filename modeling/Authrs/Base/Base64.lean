import Mathlib.Data.List.Basic
import Mathlib.Data.List.Nodup

/-!
# Base64

The standard alphabet with padding. Four characters stand for three bytes, and the last group for
one, two or three. Decoding is strict: the padding has to be there, the bits that stand for no byte
have to be zero, and nothing else may be in the text. So no two texts stand for the same bytes.

## Main definitions

* `Base64.encode`, `Base64.decode`: texts of bytes, and the bytes of a text

## Main results

* `Base64.decode_eq_some`: a text decodes to the bytes that it is the text of
-/

namespace Base64

/-- The digits, by their values. -/
def alphabet : List Char :=
  "ABCDEFGHIJKLMNOPQRSTUVWXYZabcdefghijklmnopqrstuvwxyz0123456789+/".toList

/-- The digit of a value below 64. -/
def digit (n : Nat) : Char := alphabet.getD n '='

/-- The value of a digit. -/
def value (c : Char) : Option Nat := alphabet.findIdx? (· = c)

/-- The characters that stand for some bytes. -/
def encodeBytes : List UInt8 → List Char
  | [] => []
  | [a] => [digit (a.toNat / 4), digit (a.toNat % 4 * 16), '=', '=']
  | [a, b] =>
    [digit (a.toNat / 4), digit (a.toNat % 4 * 16 + b.toNat / 16), digit (b.toNat % 16 * 4), '=']
  | a :: b :: c :: rest =>
    digit (a.toNat / 4) :: digit (a.toNat % 4 * 16 + b.toNat / 16) ::
      digit (b.toNat % 16 * 4 + c.toNat / 64) :: digit (c.toNat % 64) :: encodeBytes rest

/-- One byte, from two values: the last four bits are zero. -/
def oneByte (v w : Nat) : Option (List UInt8) :=
  if w % 16 = 0 then some [.ofNat (v * 4 + w / 16)] else none

/-- Two bytes, from three values: the last two bits are zero. -/
def twoBytes (v w x : Nat) : Option (List UInt8) :=
  if x % 4 = 0 then some [.ofNat (v * 4 + w / 16), .ofNat (w % 16 * 16 + x / 4)] else none

/-- Three bytes, from four values. -/
def threeBytes (v w x y : Nat) : List UInt8 :=
  [.ofNat (v * 4 + w / 16), .ofNat (w % 16 * 16 + x / 4), .ofNat (x % 4 * 64 + y)]

/-- The bytes that some characters stand for. -/
def decodeChars : List Char → Option (List UInt8)
  | [] => some []
  | [c, d, '=', '='] => do oneByte (← value c) (← value d)
  | [c, d, e, '='] => do twoBytes (← value c) (← value d) (← value e)
  | c :: d :: e :: f :: rest => do
    let bytes := threeBytes (← value c) (← value d) (← value e) (← value f)
    (decodeChars rest).map (bytes ++ ·)
  | _ => none

/-- The text of some bytes. -/
def encode (bytes : List UInt8) : String := .ofList (encodeBytes bytes)

/-- The bytes of a text. -/
def decode (text : String) : Option (List UInt8) := decodeChars text.toList

/-! ### Digits -/

theorem value_digit_all : ∀ n : Fin 64, value (digit n) = some n.val := by
  decide +kernel

theorem value_digit {n : Nat} (hn : n < 64) : value (digit n) = some n :=
  value_digit_all ⟨n, hn⟩

theorem value_eq_some {c : Char} {n : Nat} (h : value c = some n) : n < 64 ∧ digit n = c := by
  obtain ⟨hn, hc, -⟩ := List.findIdx?_eq_some_iff_getElem.mp h
  refine ⟨hn, ?_⟩
  have hget : alphabet[n]? = some alphabet[n] := List.getElem?_eq_getElem hn
  simpa [digit, List.getD, hget] using hc

theorem value_pad : value '=' = none := by decide +kernel

theorem digit_ne_pad {n : Nat} (hn : n < 64) : digit n ≠ '=' := by
  intro h
  have hvalue := value_digit hn
  rw [h, value_pad] at hvalue
  cases hvalue

/-! ### Round trips -/

/-- A group of four digits decodes to three bytes. -/
theorem decodeChars_group {v w x y : Nat} (hv : v < 64) (hw : w < 64) (hx : x < 64) (hy : y < 64)
    (rest : List Char) :
    decodeChars (digit v :: digit w :: digit x :: digit y :: rest) =
      (decodeChars rest).map (threeBytes v w x y ++ ·) := by
  rw [decodeChars]
  · simp [value_digit hv, value_digit hw, value_digit hx, value_digit hy]
  · intro hpad
    exact absurd hpad (digit_ne_pad hx)
  · intro hpad
    exact absurd hpad (digit_ne_pad hy)

/-- Three digits and a padding decode to two bytes. -/
theorem decodeChars_pair {v w x : Nat} (hv : v < 64) (hw : w < 64) (hx : x < 64) :
    decodeChars [digit v, digit w, digit x, '='] = twoBytes v w x := by
  rw [decodeChars]
  · simp [value_digit hv, value_digit hw, value_digit hx]
  · intro hpad
    exact absurd hpad (digit_ne_pad hx)

theorem oneByte_eq_some {v w : Nat} (hv : v < 64) (hw : w < 64) {bytes : List UInt8}
    (h : oneByte v w = some bytes) : encodeBytes bytes = [digit v, digit w, '=', '='] := by
  unfold oneByte at h
  split at h
  · rename_i hbits
    obtain rfl := Option.some.inj h
    have hbyte : (UInt8.ofNat (v * 4 + w / 16)).toNat = v * 4 + w / 16 :=
      UInt8.toNat_ofNat_of_lt' (by simp only [UInt8.size]; omega)
    have h₁ : (v * 4 + w / 16) / 4 = v := by omega
    have h₂ : (v * 4 + w / 16) % 4 * 16 = w := by omega
    simp only [encodeBytes, hbyte, h₁, h₂]
  · cases h

theorem twoBytes_eq_some {v w x : Nat} (hv : v < 64) (hw : w < 64) (hx : x < 64)
    {bytes : List UInt8} (h : twoBytes v w x = some bytes) :
    encodeBytes bytes = [digit v, digit w, digit x, '='] := by
  unfold twoBytes at h
  split at h
  · rename_i hbits
    obtain rfl := Option.some.inj h
    have ha : (UInt8.ofNat (v * 4 + w / 16)).toNat = v * 4 + w / 16 :=
      UInt8.toNat_ofNat_of_lt' (by simp only [UInt8.size]; omega)
    have hb : (UInt8.ofNat (w % 16 * 16 + x / 4)).toNat = w % 16 * 16 + x / 4 :=
      UInt8.toNat_ofNat_of_lt' (by simp only [UInt8.size]; omega)
    have h₁ : (v * 4 + w / 16) / 4 = v := by omega
    have h₂ : (v * 4 + w / 16) % 4 * 16 + (w % 16 * 16 + x / 4) / 16 = w := by omega
    have h₃ : (w % 16 * 16 + x / 4) % 16 * 4 = x := by omega
    simp only [encodeBytes, ha, hb, h₁, h₂, h₃]
  · cases h

theorem encodeBytes_threeBytes {v w x y : Nat} (hv : v < 64) (hw : w < 64) (hx : x < 64)
    (hy : y < 64) (rest : List UInt8) :
    encodeBytes (threeBytes v w x y ++ rest) =
      digit v :: digit w :: digit x :: digit y :: encodeBytes rest := by
  have ha : (UInt8.ofNat (v * 4 + w / 16)).toNat = v * 4 + w / 16 :=
    UInt8.toNat_ofNat_of_lt' (by simp only [UInt8.size]; omega)
  have hb : (UInt8.ofNat (w % 16 * 16 + x / 4)).toNat = w % 16 * 16 + x / 4 :=
    UInt8.toNat_ofNat_of_lt' (by simp only [UInt8.size]; omega)
  have hc : (UInt8.ofNat (x % 4 * 64 + y)).toNat = x % 4 * 64 + y :=
    UInt8.toNat_ofNat_of_lt' (by simp only [UInt8.size]; omega)
  have h₁ : (v * 4 + w / 16) / 4 = v := by omega
  have h₂ : (v * 4 + w / 16) % 4 * 16 + (w % 16 * 16 + x / 4) / 16 = w := by omega
  have h₃ : (w % 16 * 16 + x / 4) % 16 * 4 + (x % 4 * 64 + y) / 64 = x := by omega
  have h₄ : (x % 4 * 64 + y) % 64 = y := by omega
  simp only [threeBytes, List.cons_append, List.nil_append, encodeBytes, ha, hb, hc, h₁, h₂, h₃, h₄]

/-- **What bytes are encoded as decodes to them.** -/
theorem decodeChars_encodeBytes (bytes : List UInt8) :
    decodeChars (encodeBytes bytes) = some bytes := by
  induction bytes using encodeBytes.induct with
  | case1 => rfl
  | case2 a =>
    have ha := a.toNat_lt
    have hdecode : decodeChars (encodeBytes [a]) =
        oneByte (a.toNat / 4) (a.toNat % 4 * 16) := by
      simp [encodeBytes, decodeChars, value_digit (show a.toNat / 4 < 64 by omega),
        value_digit (show a.toNat % 4 * 16 < 64 by omega)]
    have hbyte : a.toNat / 4 * 4 + a.toNat % 4 * 16 / 16 = a.toNat := by omega
    rw [hdecode, oneByte, if_pos (by omega), hbyte, UInt8.ofNat_toNat]
  | case3 a b =>
    have ha := a.toNat_lt
    have hb := b.toNat_lt
    have hdecode : decodeChars (encodeBytes [a, b]) =
        twoBytes (a.toNat / 4) (a.toNat % 4 * 16 + b.toNat / 16) (b.toNat % 16 * 4) :=
      decodeChars_pair (by omega) (by omega) (by omega)
    have h₁ : a.toNat / 4 * 4 + (a.toNat % 4 * 16 + b.toNat / 16) / 16 = a.toNat := by omega
    have h₂ : (a.toNat % 4 * 16 + b.toNat / 16) % 16 * 16 + b.toNat % 16 * 4 / 4 = b.toNat := by omega
    rw [hdecode, twoBytes, if_pos (by omega), h₁, h₂, UInt8.ofNat_toNat, UInt8.ofNat_toNat]
  | case4 a b c rest ih =>
    have ha := a.toNat_lt
    have hb := b.toNat_lt
    have hc := c.toNat_lt
    rw [encodeBytes, decodeChars_group (by omega) (by omega) (by omega) (by omega), ih]
    have h₁ : a.toNat / 4 * 4 + (a.toNat % 4 * 16 + b.toNat / 16) / 16 = a.toNat := by omega
    have h₂ : (a.toNat % 4 * 16 + b.toNat / 16) % 16 * 16 + (b.toNat % 16 * 4 + c.toNat / 64) / 4 =
        b.toNat := by omega
    have h₃ : (b.toNat % 16 * 4 + c.toNat / 64) % 4 * 64 + c.toNat % 64 = c.toNat := by omega
    simp only [Option.map_some, threeBytes, h₁, h₂, h₃, UInt8.ofNat_toNat, List.cons_append,
      List.nil_append]

/-- **Only what bytes are encoded as decodes to them.** -/
theorem encodeBytes_of_decodeChars {cs : List Char} {bytes : List UInt8}
    (h : decodeChars cs = some bytes) : encodeBytes bytes = cs := by
  induction cs using decodeChars.induct generalizing bytes with
  | case1 =>
    obtain rfl := Option.some.inj h
    rfl
  | case2 c d =>
    simp only [decodeChars, Option.bind_eq_bind, Option.bind_eq_some_iff] at h
    obtain ⟨v, hv, w, hw, h⟩ := h
    obtain ⟨hv', rfl⟩ := value_eq_some hv
    obtain ⟨hw', rfl⟩ := value_eq_some hw
    exact oneByte_eq_some hv' hw' h
  | case3 c d e he =>
    rw [decodeChars] at h
    · simp only [Option.bind_eq_bind, Option.bind_eq_some_iff] at h
      obtain ⟨v, hv, w, hw, x, hx, h⟩ := h
      obtain ⟨hv', rfl⟩ := value_eq_some hv
      obtain ⟨hw', rfl⟩ := value_eq_some hw
      obtain ⟨hx', rfl⟩ := value_eq_some hx
      exact twoBytes_eq_some hv' hw' hx' h
    · exact he
  | case4 c d e f rest hone htwo ih =>
    rw [decodeChars] at h
    · simp only [Option.bind_eq_bind, Option.bind_eq_some_iff, Option.map_eq_some_iff] at h
      obtain ⟨v, hv, w, hw, x, hx, y, hy, rest', hrest, rfl⟩ := h
      obtain ⟨hv', rfl⟩ := value_eq_some hv
      obtain ⟨hw', rfl⟩ := value_eq_some hw
      obtain ⟨hx', rfl⟩ := value_eq_some hx
      obtain ⟨hy', rfl⟩ := value_eq_some hy
      rw [encodeBytes_threeBytes hv' hw' hx' hy', ih hrest]
    · exact hone
    · exact htwo
  | case5 cs h₁ h₂ h₃ h₄ =>
    rw [decodeChars] at h
    · cases h
    all_goals assumption

/-- **A text decodes to the bytes that it is the text of**, and to no others. -/
theorem decode_eq_some {text : String} {bytes : List UInt8} :
    decode text = some bytes ↔ encode bytes = text := by
  constructor
  · intro h
    rw [encode, encodeBytes_of_decodeChars h, String.ofList_toList]
  · rintro rfl
    rw [decode, encode, String.toList_ofList, decodeChars_encodeBytes]

@[simp] theorem decode_encode (bytes : List UInt8) : decode (encode bytes) = some bytes :=
  decode_eq_some.mpr rfl

example : encode [0x4d, 0x61, 0x6e, 0x4d] = "TWFuTQ==" := by decide +kernel

end Base64
