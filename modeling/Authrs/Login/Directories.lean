import Authrs.Base.UuidText
import Authrs.Services.Oauth

/-!
# Microsoft directories

An ID token of Microsoft names its directory by a GUID, and so may the configured authority. The
code compares the two as texts: with the directory of personal accounts exactly, with the authority
up to case. So the spelling of a GUID matters where one of the two is not written like the other.

## Main definitions

* `IdTokenClaims.inDirectory`: claims whose issuer is the login host's for a directory
* `ComparesDirectories`: two spellings of a directory or an authority are treated alike

## Main results

* `directories_compared_iff`: when they are
-/

namespace Authrs

open OauthService

/-! ### Texts of GUIDs -/

theorem eqIgnoreAsciiCase_iff {a b : String} :
    eqIgnoreAsciiCase a b = true ↔ EqIgnoreAsciiCase a b := decide_eq_true_iff

theorem toList_toAsciiLowercase (s : String) :
    (toAsciiLowercase s).toList = s.toList.map Char.toLower := String.toList_ofList

theorem isSome_hexValue {c : Char} :
    (hexValue c).isSome = (isAsciiDigit c || ('a' ≤ c && c ≤ 'f') || ('A' ≤ c && c ≤ 'F')) := by
  have hle : ∀ a b : Char, a ≤ b ↔ a.toNat ≤ b.toNat := fun a b => UInt32.le_iff_toNat_le
  have hsome : (hexValue c).isSome = true ↔ 48 ≤ c.toNat ∧ c.toNat ≤ 57 ∨
      97 ≤ c.toNat ∧ c.toNat ≤ 102 ∨ 65 ≤ c.toNat ∧ c.toNat ≤ 70 := by
    rw [hexValue]
    split_ifs <;> simp <;> omega
  rw [Bool.eq_iff_iff, hsome]
  simp only [isAsciiDigit, Bool.or_eq_true, Bool.and_eq_true, decide_eq_true_iff, hle, or_assoc]
  exact Iff.rfl

/-- The digits that stand in groups. -/
theorem exists_hyphenatedDigits {cs : List Char} {P : Char → Bool} :
    (cs.length = 36 && (cs.splitOn '-').map List.length = [8, 4, 4, 4, 12] &&
      (cs.splitOn '-').all fun l => l.all P) = true ↔
      cs.length = 36 ∧ ∃ ds, hyphenatedDigits cs = some ds ∧ ∀ c ∈ ds, P c = true := by
  rw [Bool.and_eq_true, Bool.and_eq_true, decide_eq_true_iff, decide_eq_true_iff, and_assoc]
  refine and_congr_right fun _ => ?_
  have hflatten : ((cs.splitOn '-').all fun l => l.all P) = true ↔
      ∀ c ∈ (cs.splitOn '-').flatten, P c = true := by
    simp only [List.all_eq_true, List.mem_flatten]
    exact ⟨fun h c ⟨l, hl, hc⟩ => h l hl c hc, fun h l hl c hc => h c ⟨l, hl, hc⟩⟩
  rw [hyphenatedDigits, hflatten]
  constructor
  · rintro ⟨hlengths, hall⟩
    exact ⟨_, if_pos hlengths, hall⟩
  · rintro ⟨ds, hds, hall⟩
    split_ifs at hds with hlengths
    rw [← Option.some.inj hds] at hall
    exact ⟨hlengths, hall⟩

/-- **The texts that are taken for ids are those that denote one.** -/
theorem isUuidText_iff {s : String} : isUuidText s = true ↔ ∃ u, Uuid.parseStr s = some u := by
  have hdigits : (∃ u, Uuid.parseStr s = some u) ↔
      ∃ ds, uuidDigits s.toList = some ds ∧ ∀ c ∈ ds, (hexValue c).isSome = true := by
    rw [← Option.isSome_iff_exists, Uuid.parseStr, Option.isSome_map]
    cases uuidDigits s.toList with
    | none => simp
    | some ds => simp [isSome_readHex]
  rw [hdigits, isUuidText]
  simp only [← isSome_hexValue, Bool.or_eq_true]
  generalize s.toList = cs
  rw [exists_hyphenatedDigits]
  constructor
  · rintro (((⟨hlen, h⟩ | hsimple) | hbraced) | hurn)
    · rwa [uuidDigits, if_neg (by omega), if_pos hlen]
    · rw [Bool.and_eq_true, decide_eq_true_iff, List.all_eq_true] at hsimple
      exact ⟨cs, if_pos hsimple.1, hsimple.2⟩
    · rw [Bool.and_eq_true, Bool.and_eq_true, decide_eq_true_iff, decide_eq_true_iff,
        exists_hyphenatedDigits, List.length_dropLast, List.length_drop] at hbraced
      obtain ⟨hends, hlen, h⟩ := hbraced
      rwa [uuidDigits, if_neg (by omega), if_neg (by omega), if_pos ⟨by omega, hends⟩]
    · rw [Bool.and_eq_true, decide_eq_true_iff, exists_hyphenatedDigits, List.length_drop] at hurn
      obtain ⟨hstart, hlen, h⟩ := hurn
      rwa [uuidDigits, if_neg (by omega), if_neg (by omega), if_neg (by omega),
        if_pos ⟨by omega, hstart⟩]
  · rintro ⟨ds, hds, hall⟩
    unfold uuidDigits at hds
    split_ifs at hds with hsimple hhyphenated hbraced hurn
    · refine .inl (.inl (.inr ?_))
      rw [Bool.and_eq_true, decide_eq_true_iff, List.all_eq_true, Option.some.inj hds]
      rw [Option.some.inj hds] at hsimple
      exact ⟨hsimple, hall⟩
    · exact .inl (.inl (.inl ⟨hhyphenated, ds, hds, hall⟩))
    · refine .inl (.inr ?_)
      rw [Bool.and_eq_true, Bool.and_eq_true, decide_eq_true_iff, decide_eq_true_iff,
        exists_hyphenatedDigits, List.length_dropLast, List.length_drop]
      exact ⟨hbraced.2, by omega, ds, hds, hall⟩
    · refine .inr ?_
      rw [Bool.and_eq_true, decide_eq_true_iff, exists_hyphenatedDigits, List.length_drop]
      exact ⟨hurn.2, by omega, ds, hds, hall⟩

/-! ### The verdict -/

/-- The claims of a token that the login host has issued for a directory. -/
def IdTokenClaims.inDirectory (claims : IdTokenClaims) (tid : String) : IdTokenClaims :=
  { claims with tid := some tid, iss := MICROSOFT_LOGIN_BASE ++ "/" ++ tid ++ "/v2.0" }

/-- Two texts of one GUID that differ in the case of letters only. -/
def SameSpelling (tid tid' : String) : Prop :=
  EqIgnoreAsciiCase tid tid' ∧ ∃ u, Uuid.parseStr tid = some u ∧ Uuid.parseStr tid' = some u

/-- **Directories are compared as GUIDs**: the case of the directory's letters and the spelling of
the authority make no difference, and an authority that is a GUID accepts the directory it denotes. -/
structure ComparesDirectories (w : World) (cfg cfg' : OauthConfig) (claims : IdTokenClaims)
    (tid tid' : String) : Prop where
  verdict : SameSpelling tid tid' → checkMicrosoftIssuer cfg (claims.inDirectory tid) =
    checkMicrosoftIssuer cfg (claims.inDirectory tid')
  verified : SameSpelling tid tid' →
    (profileFromClaims w .microsoft (claims.inDirectory tid)).map OauthProfile.emailVerified =
      (profileFromClaims w .microsoft (claims.inDirectory tid')).map OauthProfile.emailVerified
  authority : ∀ u, Uuid.parseStr (microsoftAuthority cfg) = some u →
    Uuid.parseStr (microsoftAuthority cfg') = some u →
      checkMicrosoftIssuer cfg (claims.inDirectory tid) =
        checkMicrosoftIssuer cfg' (claims.inDirectory tid)
  pinned : ∀ u, Uuid.parseStr (microsoftAuthority cfg) = some u →
    (checkMicrosoftIssuer cfg (claims.inDirectory tid) = .ok () ↔ Uuid.parseStr tid = some u)

/-- The directories that an authority permits. -/
def Permits (authority tid : String) : Bool :=
  if authority = "common" then true
  else if authority = "organizations" then tid ≠ MICROSOFT_CONSUMERS_TENANT_ID
  else if authority = "consumers" then tid = MICROSOFT_CONSUMERS_TENANT_ID
  else if isUuidText authority then eqIgnoreAsciiCase tid authority
  else true

theorem checkMicrosoftIssuer_inDirectory (cfg : OauthConfig) (claims : IdTokenClaims)
    (tid : String) :
    checkMicrosoftIssuer cfg (claims.inDirectory tid) =
      if Permits (toAsciiLowercase (microsoftAuthority cfg)) tid then .ok ()
      else .error (.forbidden "This Microsoft account is not permitted for this tenant") := by
  rw [checkMicrosoftIssuer]
  exact if_neg fun h => h rfl

theorem verdict_eq_iff {cfg cfg' : OauthConfig} {claims : IdTokenClaims} {tid tid' : String} :
    checkMicrosoftIssuer cfg (claims.inDirectory tid) =
        checkMicrosoftIssuer cfg' (claims.inDirectory tid') ↔
      Permits (toAsciiLowercase (microsoftAuthority cfg)) tid =
        Permits (toAsciiLowercase (microsoftAuthority cfg')) tid' := by
  rw [checkMicrosoftIssuer_inDirectory, checkMicrosoftIssuer_inDirectory]
  cases Permits (toAsciiLowercase (microsoftAuthority cfg)) tid <;>
    cases Permits (toAsciiLowercase (microsoftAuthority cfg')) tid' <;> simp

/-- An authority that is a GUID permits the directories that are spelled as it is, up to case. -/
theorem permits_of_parseStr {authority tid : String} {u : Uuid}
    (h : Uuid.parseStr authority = some u) :
    Permits (toAsciiLowercase authority) tid = true ↔ EqIgnoreAsciiCase tid authority := by
  have hlower := Uuid.parseStr_toLower h (toList_toAsciiLowercase authority)
  have hkeyword : ∀ k, Uuid.parseStr k = none → toAsciiLowercase authority ≠ k := by
    rintro k hk rfl
    rw [hlower] at hk
    cases hk
  rw [Permits, if_neg (hkeyword _ (by decide)), if_neg (hkeyword _ (by decide)),
    if_neg (hkeyword _ (by decide)), if_pos (isUuidText_iff.mpr ⟨u, hlower⟩), eqIgnoreAsciiCase_iff,
    EqIgnoreAsciiCase, toList_toAsciiLowercase, List.map_map]
  have htwice : (Char.toLower ∘ Char.toLower) = Char.toLower := funext toLower_toLower
  rw [htwice]
  exact Iff.rfl

/-- **They are those that denote it, up to case, in a text of the same length.** -/
theorem permits_iff {authority tid : String} {u : Uuid} (h : Uuid.parseStr authority = some u) :
    Permits (toAsciiLowercase authority) tid = true ↔
      Uuid.parseStr (toAsciiLowercase tid) = some u ∧
        tid.toList.length = authority.toList.length := by
  have hlower := Uuid.parseStr_toLower h (toList_toAsciiLowercase authority)
  have hlength : ∀ s, (toAsciiLowercase s).toList.length = s.toList.length := fun s => by
    rw [toList_toAsciiLowercase, List.length_map]
  have hcase : EqIgnoreAsciiCase tid authority ↔
      toAsciiLowercase tid = toAsciiLowercase authority := String.ofList_inj.symm
  rw [permits_of_parseStr h, hcase]
  constructor
  · intro heq
    rw [heq, ← hlength tid, ← hlength authority, heq]
    exact ⟨hlower, rfl⟩
  · rintro ⟨htid, hlen⟩
    have hsame := (Uuid.eqIgnoreAsciiCase_iff htid hlower).mpr (by rw [hlength, hlength, hlen])
    have htwice : ∀ s, toAsciiLowercase (toAsciiLowercase s) = toAsciiLowercase s := fun s => by
      rw [toAsciiLowercase, toList_toAsciiLowercase, List.map_map]
      exact congrArg _ (List.map_congr_left fun c _ => toLower_toLower c)
    rw [← htwice tid, ← htwice authority]
    exact congrArg String.ofList hsame

/-- The keywords compare the directory with that of personal accounts, letter by letter. -/
theorem permits_eq_iff {authority tid tid' : String} (h : EqIgnoreAsciiCase tid tid') :
    Permits authority tid = Permits authority tid' ↔
      (authority = "organizations" ∨ authority = "consumers" →
        (tid = MICROSOFT_CONSUMERS_TENANT_ID ↔ tid' = MICROSOFT_CONSUMERS_TENANT_ID)) := by
  have heq : eqIgnoreAsciiCase tid authority = eqIgnoreAsciiCase tid' authority := by
    rw [Bool.eq_iff_iff, eqIgnoreAsciiCase_iff, eqIgnoreAsciiCase_iff, EqIgnoreAsciiCase,
      EqIgnoreAsciiCase, h]
  rw [Permits, Permits, heq]
  by_cases hcommon : authority = "common"
  · subst hcommon
    simp
  by_cases horganizations : authority = "organizations"
  · subst horganizations
    simp
  by_cases hconsumers : authority = "consumers"
  · subst hconsumers
    simp
  · simp [hcommon, horganizations, hconsumers]

theorem emailVerified_eq_iff {w : World} {claims : IdTokenClaims} {tid tid' : String} :
    (profileFromClaims w .microsoft (claims.inDirectory tid)).map OauthProfile.emailVerified =
        (profileFromClaims w .microsoft (claims.inDirectory tid')).map OauthProfile.emailVerified ↔
      (nonEmptyTrimmed claims.oid ≠ none → nonEmptyTrimmed claims.email ≠ none →
        claimIsTrue claims.xmsEdov = false →
          (tid = MICROSOFT_CONSUMERS_TENANT_ID ↔ tid' = MICROSOFT_CONSUMERS_TENANT_ID)) := by
  have hflag : ∀ t, (profileFromClaims w .microsoft (claims.inDirectory t)).map
      OauthProfile.emailVerified =
        (nonEmptyTrimmed claims.oid).elim (.error (.unauthorized "ID token has no object id"))
          fun _ => .ok ((claimIsTrue claims.xmsEdov || t = MICROSOFT_CONSUMERS_TENANT_ID) &&
            ((nonEmptyTrimmed claims.email).map w.toLowercase).isSome) := by
    intro t
    unfold profileFromClaims accountKey
    simp only [IdTokenClaims.inDirectory]
    cases nonEmptyTrimmed claims.oid <;> rfl
  rw [hflag, hflag]
  cases nonEmptyTrimmed claims.oid with
  | none => simp
  | some oid =>
    cases nonEmptyTrimmed claims.email with
    | none => simp
    | some email =>
      cases claimIsTrue claims.xmsEdov <;> simp

/-- **A directory and an authority are spelled alike** where the code compares their texts. -/
structure SpelledAlike (cfg cfg' : OauthConfig) (claims : IdTokenClaims) (tid tid' : String) :
    Prop where
  keywords : SameSpelling tid tid' →
    toAsciiLowercase (microsoftAuthority cfg) = "organizations" ∨
      toAsciiLowercase (microsoftAuthority cfg) = "consumers" →
        (tid = MICROSOFT_CONSUMERS_TENANT_ID ↔ tid' = MICROSOFT_CONSUMERS_TENANT_ID)
  personal : SameSpelling tid tid' → nonEmptyTrimmed claims.oid ≠ none →
    nonEmptyTrimmed claims.email ≠ none → claimIsTrue claims.xmsEdov = false →
      (tid = MICROSOFT_CONSUMERS_TENANT_ID ↔ tid' = MICROSOFT_CONSUMERS_TENANT_ID)
  authority : ∀ u, Uuid.parseStr (microsoftAuthority cfg) = some u →
    Uuid.parseStr (microsoftAuthority cfg') = some u →
      Uuid.parseStr (toAsciiLowercase tid) = some u →
        (tid.toList.length = (microsoftAuthority cfg).toList.length ↔
          tid.toList.length = (microsoftAuthority cfg').toList.length)
  pinned : ∀ u, Uuid.parseStr (microsoftAuthority cfg) = some u →
    Uuid.parseStr (toAsciiLowercase tid) = some u →
      (tid.toList.length = (microsoftAuthority cfg).toList.length ↔ Uuid.parseStr tid = some u)

/-- **Directories are compared as GUIDs exactly when they are spelled alike.** -/
theorem directories_compared_iff (w : World) (cfg cfg' : OauthConfig) (claims : IdTokenClaims)
    (tid tid' : String) :
    ComparesDirectories w cfg cfg' claims tid tid' ↔ SpelledAlike cfg cfg' claims tid tid' := by
  have hverdict : (SameSpelling tid tid' → checkMicrosoftIssuer cfg (claims.inDirectory tid) =
      checkMicrosoftIssuer cfg (claims.inDirectory tid')) ↔
        (SameSpelling tid tid' → toAsciiLowercase (microsoftAuthority cfg) = "organizations" ∨
          toAsciiLowercase (microsoftAuthority cfg) = "consumers" →
            (tid = MICROSOFT_CONSUMERS_TENANT_ID ↔ tid' = MICROSOFT_CONSUMERS_TENANT_ID)) :=
    forall_congr' fun h => verdict_eq_iff.trans (permits_eq_iff h.1)
  have haccepted : checkMicrosoftIssuer cfg (claims.inDirectory tid) = .ok () ↔
      Permits (toAsciiLowercase (microsoftAuthority cfg)) tid = true := by
    rw [checkMicrosoftIssuer_inDirectory]
    cases Permits (toAsciiLowercase (microsoftAuthority cfg)) tid <;> simp
  have hdenotes : ∀ u, Uuid.parseStr tid = some u →
      Uuid.parseStr (toAsciiLowercase tid) = some u :=
    fun u h => Uuid.parseStr_toLower h (toList_toAsciiLowercase tid)
  constructor
  · intro h
    refine ⟨hverdict.mp h.verdict, fun hs => emailVerified_eq_iff.mp (h.verified hs),
      fun u hu hu' htid => ?_, fun u hu htid => ?_⟩
    · have heq := verdict_eq_iff.mp (h.authority u hu hu')
      rw [Bool.eq_iff_iff, permits_iff hu, permits_iff hu'] at heq
      exact ⟨fun hlen => (heq.mp ⟨htid, hlen⟩).2, fun hlen => (heq.mpr ⟨htid, hlen⟩).2⟩
    · have hiff := h.pinned u hu
      rw [haccepted, permits_iff hu] at hiff
      rw [← hiff]
      exact ⟨fun hlen => ⟨htid, hlen⟩, And.right⟩
  · intro h
    refine ⟨hverdict.mpr h.keywords, fun hs => emailVerified_eq_iff.mpr (h.personal hs),
      fun u hu hu' => ?_, fun u hu => ?_⟩
    · rw [verdict_eq_iff, Bool.eq_iff_iff, permits_iff hu, permits_iff hu']
      exact and_congr_right fun htid => h.authority u hu hu' htid
    · rw [haccepted, permits_iff hu]
      constructor
      · rintro ⟨htid, hlen⟩
        exact (h.pinned u hu htid).mp hlen
      · intro hparse
        exact ⟨hdenotes u hparse, (h.pinned u hu (hdenotes u hparse)).mpr hparse⟩

/-! ### Personal accounts -/

/-- A tenant for accounts of organizations only. -/
def organizationsOnly : OauthConfig :=
  ⟨"client", "secret", "https://acme/callback", some "organizations", none⟩

/-- The claims of a token. -/
def bareClaims : IdTokenClaims :=
  ⟨"", "subject", none, none, none, none, none, none, none, none, none⟩

/-- The directory of personal accounts, in capitals. -/
def consumersInCapitals : String := "9188040D-6C67-4C5B-B112-36A304B66DAD"

theorem sameSpelling_consumers : SameSpelling MICROSOFT_CONSUMERS_TENANT_ID consumersInCapitals :=
  ⟨by decide +kernel, 0x9188040d6c674c5bb11236a304b66dad, by decide +kernel, by decide +kernel⟩

/-- A tenant that refuses personal accounts accepts them when the directory is in capitals. -/
theorem capitals_accepted : ¬ComparesDirectories World.offline organizationsOnly organizationsOnly
    bareClaims MICROSOFT_CONSUMERS_TENANT_ID consumersInCapitals := by
  intro h
  have horganizations : toAsciiLowercase (microsoftAuthority organizationsOnly) = "organizations" := by
    decide +kernel
  have heq := verdict_eq_iff.mp (h.verdict sameSpelling_consumers)
  rw [permits_eq_iff sameSpelling_consumers.1] at heq
  have hcapitals := (heq (.inl horganizations)).mp rfl
  revert hcapitals
  decide +kernel

end Authrs
