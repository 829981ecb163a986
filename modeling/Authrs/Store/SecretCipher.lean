import Authrs.Base.Base64
import Authrs.Base.Error
import Authrs.Base.Text

/-!
# The cipher of secrets

Secrets are kept as base64 texts of a nonce of 12 bytes and a ciphertext of AES-256-GCM, which is a
parameter. What is decrypted is what has been encrypted: base64 texts are canonical, the nonce has a
fixed length, and the cipher authenticates.

## Main definitions

* `Aead`, `Aead.Lawful`: the cipher of bytes, and what is known of it
* `SecretCipher.new`, `SecretCipher.encrypt`, `SecretCipher.decrypt`: their namesakes in the source

## Main results

* `decrypt_eq_ok_iff`: a text decrypts to what it is an encryption of, and to nothing else
* `new_key_eq_some`: which texts give a cipher its key
-/

namespace Authrs

/-- AES-256-GCM, and the texts of the errors. -/
structure Aead where
  encrypt : (key nonce plain : List UInt8) → Except String (List UInt8)
  decrypt : (key nonce ciphertext : List UInt8) → Option (List UInt8)
  utf8Error : List UInt8 → String

/-- **What is decrypted is what has been encrypted**, with the same key and the same nonce. -/
structure Aead.Lawful (A : Aead) : Prop where
  decrypt_iff : ∀ key nonce ciphertext plain,
    A.decrypt key nonce ciphertext = some plain ↔ A.encrypt key nonce plain = .ok ciphertext

/-- `str::as_bytes`. -/
def utf8Bytes (s : String) : List UInt8 := s.toByteArray.data.toList

/-- `String::from_utf8`. -/
def ofUtf8 (bytes : List UInt8) : Option String := String.fromUTF8? ⟨bytes.toArray⟩

/-- **Bytes are read as the text that they encode.** -/
theorem ofUtf8_eq_some {bytes : List UInt8} {s : String} :
    ofUtf8 bytes = some s ↔ utf8Bytes s = bytes := by
  unfold ofUtf8 String.fromUTF8? utf8Bytes
  constructor
  · intro h
    split at h
    · obtain rfl := Option.some.inj h
      rfl
    · cases h
  · rintro rfl
    have hvalid : ByteArray.IsValidUTF8 ⟨s.toByteArray.data.toList.toArray⟩ := s.isValidUTF8
    rw [dif_pos hvalid]
    rfl

/-- The cipher: its key, if a valid one was given. -/
structure SecretCipher where
  key : Option { k : List UInt8 // k.length = 32 }

namespace SecretCipher

/-- A nonce. -/
abbrev Nonce : Type := { n : List UInt8 // n.length = 12 }

/-- Build from a base64 32-byte key. A missing or invalid key is allowed here; encrypt and decrypt
then fail with a configuration error. -/
def new (keyBase64 : Option String) : SecretCipher where
  key := do
    let text ← (keyBase64.map trim).filter (· ≠ "")
    let k ← Base64.decode text
    if h : k.length = 32 then some ⟨k, h⟩ else none

def cipher (c : SecretCipher) : Except AppError { k : List UInt8 // k.length = 32 } :=
  match c.key with
  | some k => .ok k
  | none => .error (.internal "KV_STORE_ENCRYPTION_KEY not set or invalid (need 32-byte base64)")

variable (A : Aead)

/-- Encrypt to base64(nonce || ciphertext). -/
def encrypt (c : SecretCipher) (nonce : Nonce) (plain : String) : Except AppError String := do
  let key ← c.cipher
  let ciphertext ← (A.encrypt key.val nonce.val (utf8Bytes plain)).mapError .internal
  pure (Base64.encode (nonce.val ++ ciphertext))

def decrypt (c : SecretCipher) (encryptedB64 : String) : Except AppError String := do
  let key ← c.cipher
  match Base64.decode encryptedB64 with
  | none => .error (.internal "Invalid base64 in encrypted value")
  | some bytes =>
    if bytes.length < 12 then .error (.internal "Encrypted value too short")
    else
      match A.decrypt key.val (bytes.take 12) (bytes.drop 12) with
      | none => .error (.internal "Decryption failed (wrong key or corrupted data)")
      | some plain =>
        match ofUtf8 plain with
        | none => .error (.internal (A.utf8Error plain))
        | some text => .ok text

variable {A} {c : SecretCipher}

/-- The key of a cipher is the one whose text it was given, up to blanks around it. -/
theorem new_key_eq_some {keyBase64 : Option String} {key : { k : List UInt8 // k.length = 32 }} :
    (new keyBase64).key = some key ↔ ∃ text, keyBase64 = some text ∧
      trim text = Base64.encode key.val := by
  have hfilter : ∀ text, ((keyBase64.map trim).filter (· ≠ "") = some text ∧
      Base64.decode text = some key.val) ↔ ∃ given, keyBase64 = some given ∧ trim given = text ∧
        text = Base64.encode key.val := by
    intro text
    rw [Option.filter_eq_some_iff, Option.map_eq_some_iff, Base64.decode_eq_some]
    constructor
    · rintro ⟨⟨⟨given, hgiven, rfl⟩, -⟩, htext⟩
      exact ⟨given, hgiven, rfl, htext.symm⟩
    · rintro ⟨given, hgiven, rfl, htext⟩
      refine ⟨⟨⟨given, hgiven, rfl⟩, ?_⟩, htext.symm⟩
      -- The text of 32 bytes is not empty.
      simp only [decide_eq_true_eq]
      intro hempty
      have hdecode := Base64.decode_encode key.val
      rw [← htext, hempty] at hdecode
      have hnil : [] = key.val := Option.some.inj hdecode
      have hlength := key.property
      rw [← hnil] at hlength
      cases hlength
  unfold new
  simp only [Option.bind_eq_bind, Option.bind_eq_some_iff]
  constructor
  · rintro ⟨text, htext, k, hk, hkey⟩
    split at hkey
    · obtain rfl := Option.some.inj hkey
      obtain ⟨given, hgiven, rfl, hencode⟩ := (hfilter text).mp ⟨htext, hk⟩
      exact ⟨given, hgiven, hencode⟩
    · cases hkey
  · rintro ⟨given, hgiven, hencode⟩
    obtain ⟨htext, hk⟩ := (hfilter _).mpr ⟨given, hgiven, rfl, hencode⟩
    exact ⟨_, htext, key.val, hk, by rw [dif_pos key.property]⟩

theorem cipher_eq_ok {key : { k : List UInt8 // k.length = 32 }} :
    c.cipher = .ok key ↔ c.key = some key := by
  unfold cipher
  cases c.key with
  | none => simp
  | some k => simp

theorem encrypt_eq_ok {nonce : Nonce} {plain text : String} :
    c.encrypt A nonce plain = .ok text ↔ ∃ key ciphertext, c.key = some key ∧
      A.encrypt key.val nonce.val (utf8Bytes plain) = .ok ciphertext ∧
        Base64.encode (nonce.val ++ ciphertext) = text := by
  have hbytes : ∀ key ciphertext, (A.encrypt key nonce.val (utf8Bytes plain)).mapError
      AppError.internal = .ok ciphertext ↔ A.encrypt key nonce.val (utf8Bytes plain) = .ok ciphertext := by
    intro key ciphertext
    cases A.encrypt key nonce.val (utf8Bytes plain) <;> simp [Except.mapError]
  unfold encrypt
  simp only [bind_eq_ok, cipher_eq_ok, hbytes]
  constructor
  · rintro ⟨key, hkey, ciphertext, hciphertext, htext⟩
    exact ⟨key, ciphertext, hkey, hciphertext, Except.ok.inj htext⟩
  · rintro ⟨key, ciphertext, hkey, hciphertext, rfl⟩
    exact ⟨key, hkey, ciphertext, hciphertext, rfl⟩

theorem decrypt_eq_ok {text plain : String} :
    c.decrypt A text = .ok plain ↔ ∃ key bytes, c.key = some key ∧
      Base64.decode text = some bytes ∧ 12 ≤ bytes.length ∧
        A.decrypt key.val (bytes.take 12) (bytes.drop 12) = some (utf8Bytes plain) := by
  unfold decrypt
  simp only [bind_eq_ok, cipher_eq_ok]
  refine exists_congr fun key => ?_
  constructor
  · rintro ⟨hkey, h⟩
    split at h
    · cases h
    · rename_i bytes hbytes
      split at h
      · cases h
      · rename_i hlong
        split at h
        · cases h
        · rename_i content hcontent
          split at h
          · cases h
          · rename_i text' htext
            obtain rfl := Except.ok.inj h
            rw [← ofUtf8_eq_some.mp htext] at hcontent
            exact ⟨bytes, hkey, hbytes, by omega, hcontent⟩
  · rintro ⟨bytes, hkey, hbytes, hlong, hcontent⟩
    have hshort : ¬bytes.length < 12 := by omega
    refine ⟨hkey, ?_⟩
    simp only [hbytes, if_neg hshort, hcontent, ofUtf8_eq_some.mpr rfl]

/-- **What is encrypted is decrypted.** -/
theorem decrypt_of_encrypt (hA : A.Lawful) {nonce : Nonce} {text plain : String}
    (h : c.encrypt A nonce plain = .ok text) : c.decrypt A text = .ok plain := by
  obtain ⟨key, ciphertext, hkey, hciphertext, rfl⟩ := encrypt_eq_ok.mp h
  refine decrypt_eq_ok.mpr ⟨key, nonce.val ++ ciphertext, hkey, Base64.decode_encode _, ?_, ?_⟩
  · rw [List.length_append, nonce.property]
    omega
  · rw [List.take_left' nonce.property, List.drop_left' nonce.property]
    exact (hA.decrypt_iff _ _ _ _).mpr hciphertext

/-- **What is decrypted has been encrypted**, under the nonce that it starts with. -/
theorem encrypt_of_decrypt (hA : A.Lawful) {text plain : String}
    (h : c.decrypt A text = .ok plain) : ∃ nonce, c.encrypt A nonce plain = .ok text := by
  obtain ⟨key, bytes, hkey, hbytes, hlong, hcontent⟩ := decrypt_eq_ok.mp h
  have hlength : (bytes.take 12).length = 12 := by
    rw [List.length_take]
    omega
  refine ⟨⟨bytes.take 12, hlength⟩, encrypt_eq_ok.mpr ⟨key, bytes.drop 12, hkey,
    (hA.decrypt_iff _ _ _ _).mp hcontent, ?_⟩⟩
  rw [List.take_append_drop]
  exact Base64.decode_eq_some.mp hbytes

/-- **A text decrypts to what it is an encryption of**, under some nonce, and to nothing else. -/
theorem decrypt_eq_ok_iff (A : Aead) (hA : A.Lawful) (c : SecretCipher) (text plain : String) :
    c.decrypt A text = .ok plain ↔ ∃ nonce, c.encrypt A nonce plain = .ok text := by
  constructor
  · exact encrypt_of_decrypt hA
  · rintro ⟨nonce, h⟩
    exact decrypt_of_encrypt hA h

end SecretCipher

/-! ### One encryption -/

/-- The bytes of a value of AES-256-GCM: one key, one nonce, one text. -/
def Aead.sample : Aead where
  encrypt key nonce plain :=
    if key = List.replicate 32 7 ∧ nonce = [0, 1, 2, 3, 4, 5, 6, 7, 8, 9, 10, 11] ∧
        plain = utf8Bytes "true" then
      .ok [108, 243, 156, 21, 3, 57, 44, 72, 30, 189, 231, 97, 65, 137, 62, 78, 2, 237, 235, 76]
    else .error "aead::Error"
  decrypt key nonce ciphertext :=
    if key = List.replicate 32 7 ∧ nonce = [0, 1, 2, 3, 4, 5, 6, 7, 8, 9, 10, 11] ∧ ciphertext =
        [108, 243, 156, 21, 3, 57, 44, 72, 30, 189, 231, 97, 65, 137, 62, 78, 2, 237, 235, 76] then
      some (utf8Bytes "true")
    else none
  utf8Error _ := "invalid utf-8 sequence of 1 bytes from index 0"

theorem Aead.sample_lawful : Aead.sample.Lawful where
  decrypt_iff key nonce ciphertext plain := by
    unfold sample
    simp only
    split
    · rename_i h
      split
      · rename_i h'
        rw [h.2.2, h'.2.2]
        simp
      · rename_i h'
        refine iff_of_false (fun hplain => h' ⟨h.1, h.2.1, (Option.some.inj hplain).symm⟩) nofun
    · rename_i h
      split
      · rename_i h'
        exact iff_of_false nofun fun hciphertext => h ⟨h'.1, h'.2.1, (Except.ok.inj hciphertext).symm⟩
      · exact iff_of_false nofun nofun

/-- The cipher of the key of 32 sevens. -/
def sampleCipher : SecretCipher := .new (some " BwcHBwcHBwcHBwcHBwcHBwcHBwcHBwcHBwcHBwcHBwc=\n")

/-- The text of an encryption is decrypted. -/
theorem decrypt_eq_ok_iff_sample :
    (sampleCipher.decrypt .sample "AAECAwQFBgcICQoLbPOcFQM5LEgevedhQYk+TgLt60w=" = .ok "true" ↔
      ∃ nonce, sampleCipher.encrypt .sample nonce "true" =
        .ok "AAECAwQFBgcICQoLbPOcFQM5LEgevedhQYk+TgLt60w=") ∧
    sampleCipher.decrypt .sample "AAECAwQFBgcICQoLbPOcFQM5LEgevedhQYk+TgLt60w=" = .ok "true" :=
  ⟨SecretCipher.decrypt_eq_ok_iff .sample Aead.sample_lawful sampleCipher _ _, by decide +kernel⟩

end Authrs
