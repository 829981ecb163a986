import Authrs.Login.Challenges

/-!
# The second factor cannot be bypassed

In every run of clients, however the statements interleave: a session minted by a call that has
read an identity with MFA enabled was minted by `complete_mfa_login`, after the check of the code,
and consumed one challenge for its tenant and user; and no challenge gives rise to two sessions.
The challenge was issued on passed gates, as long as forced password changes with MFA enabled find
their membership and identity in order, which they do not check.

## Main definitions

* `IssuedOnGates`: a challenge was issued by a call whose membership and identity pass the gates
* `RedeemsChallenge`: a call has consumed one challenge for its tenant and user
* `SecondFactorUpheld`: the property of a run
* `ForceChangesGated`: the condition on forced password changes

## Main results

* `run_secondFactorUpheld`: the property holds after every schedule that meets the condition
* `changeLocked_not_upheld`: a run that does not meet it
-/

namespace Authrs

open Interaction Relational

variable {ι : Type} [DecidableEq ι]

/-- The instants at which a call made its exchanges. -/
def instants (i : ι) (log : List (Move authrs ι State)) : Set Time :=
  {t | ∃ m ∈ log, m.who = i ∧ m.before.now = t}

/-- **A challenge issued on passed gates**: the call that inserted it had read one membership and
one identity, and at instants of the call these passed every gate. -/
def IssuedOnGates (log : List (Move authrs ι State)) (r : ChallengeRow) : Prop :=
  ∃ newer c older, log = newer ++ c :: older ∧ Inserts c r ∧
    ∃ m i ds, Rows [m] [i] ds (own c.who older) ∧ m.id = r.userId ∧
      Gates (instants c.who older) m i

/-- **One challenge for the tenant and the user**, unexpired when the call read it, and consumed by
the call: its only delete by token touched this one row. -/
def RedeemsChallenge (i : ι) (log : List (Move authrs ι State)) (mfaToken tenantId : String)
    (userId : Uuid) : Prop :=
  (own i log).filterMap redemptionOf = [(mfaToken, 1)] ∧
    ∃ r : ChallengeRow, r.token = mfaToken ∧ r.tenantId = tenantId ∧ r.userId = userId ∧
      (∃ g ∈ log, g.who = i ∧ g.event.request = .sql (.challenges (.get mfaToken)) ∧
        r ∈ g.before.db.mfaChallenges ∧ g.before.now < r.expiresAt) ∧
      (∃ d ∈ log, d.who = i ∧ d.event = did (.challenges (.delete mfaToken)) 1 ∧
        ∃ r' ∈ d.before.db.mfaChallenges, r'.Same r) ∧
      IssuedOnGates log r

/-- **The property of a run**, read off its record. -/
structure SecondFactorUpheld (w : World) (call : ι → ClientCall)
    (log : List (Move authrs ι State)) : Prop where
  /-- A session of a call that has read an identity with MFA enabled. -/
  second : ∀ newer m older, log = newer ++ m :: older → ∀ tenantId userId,
    issued m.event.request = some (.session, tenantId, userId) →
    ∀ identity ∈ (own m.who older).filterMap identityOf, identity.mfaEnabled = true →
      ∃ ip userAgent mfaToken code, call m.who = .login ip userAgent (.completeMfa mfaToken code) ∧
        Verified w identity code (own m.who older) ∧
        RedeemsChallenge m.who older mfaToken tenantId userId
  /-- A challenge gives rise to one session. -/
  once : ∀ m ∈ log, ∀ m' ∈ log, ∀ k k' mfaToken,
    sessionKey m.event.request = some k → sessionKey m'.event.request = some k' →
    (mfaToken, 1) ∈ (own m.who log).filterMap redemptionOf →
    (mfaToken, 1) ∈ (own m'.who log).filterMap redemptionOf → m.who = m'.who ∧ k = k'

/-- **Forced password changes find their rows in order**: when such a call reads an identity with
MFA enabled, the membership it has read and the identity are active, and the identity is not
locked. -/
def ForceChangesGated (call : ι → ClientCall) (log : List (Move authrs ι State)) : Prop :=
  ∀ newer (d : Move authrs ι State) older, log = newer ++ d :: older →
    ∀ ip userAgent changeToken newPassword retypePassword,
      call d.who = .login ip userAgent (.forceChange changeToken newPassword retypePassword) →
    ∀ id row, d.event.request = .sql (.identities (.getById id)) →
      d.before.db.identity id = some row → row.mfaEnabled = true →
    ∀ m ∈ (own d.who older).filterMap membershipOf,
      m.status = "active" ∧ row.status = "active" ∧
        ∀ l, row.lockedUntil = some l → ¬ d.before.now < l

section Runs

variable {w : World} {s : State} {call : ι → ClientCall} {l : List (ι ⊕ Nat)}
  {newer older : List (Move authrs ι State)} {m : Move authrs ι State}

/-- A session is issued by a login call, on its basis. -/
theorem login_of_issued (hlog : (clientRun w s call l).log = newer ++ m :: older) {k : Issue}
    {tenantId : String} {userId : Uuid}
    (hi : issued m.event.request = some (k, tenantId, userId)) :
    ∃ ip userAgent c, call m.who = .login ip userAgent c ∧
      Vetted w c (own m.who older) m.event := by
  have hg := clientRun_guaranteed hlog
  cases hcall : call m.who with
  | login ip userAgent c =>
    rw [hcall] at hg
    exact ⟨ip, userAgent, c, rfl, hg⟩
  | identityLogin email password =>
    rw [hcall] at hg
    exact absurd (hi.symm.trans hg) (by simp)
  | mfa identityId c =>
    rw [hcall] at hg
    exact absurd (hi.symm.trans hg) (by simp)

/-- The readings of the clock are instants of the call. -/
theorem clocks_subset_instants (hlog : (clientRun w s call l).log = newer ++ older) (i : ι) :
    clocks (own i older) ⊆ instants i older := by
  intro t ht
  obtain ⟨m, hm, hwho, he⟩ := mem_own.mp ht
  obtain ⟨n, o, rfl⟩ := List.append_of_mem hm
  rw [← List.append_assoc] at hlog
  obtain ⟨l', -, -, hreply⟩ := clientRun_split hlog
  refine ⟨m, hm, hwho, ?_⟩
  rw [he] at hreply
  exact hreply.symm

/-- What a lookup of an identity by id returned was in the table. -/
theorem row_of_getById (hlog : (clientRun w s call l).log = newer ++ m :: older) {id : Uuid}
    {i : Identity} (he : m.event = did (.identities (.getById id)) (some i)) :
    ∃ row, m.before.db.identity id = some row ∧ row.toIdentity = i := by
  obtain ⟨l', -, -, hreply⟩ := clientRun_split hlog
  rw [he] at hreply
  exact Option.map_eq_some_iff.mp (Except.ok.inj hreply).symm

/-- A challenge insert of a run was made on passed gates. -/
theorem issuedOnGates_of_inserts (hforce : ForceChangesGated call (clientRun w s call l).log)
    (hlog : (clientRun w s call l).log = newer ++ older) {c : Move authrs ι State}
    {r : ChallengeRow} (hc : c ∈ older) (hr : Inserts c r) : IssuedOnGates older r := by
  obtain ⟨n, o, rfl⟩ := List.append_of_mem hc
  rw [← List.append_assoc] at hlog
  have hissued : ∃ tenantId, issued c.event.request = some (.challenge, tenantId, r.userId) := by
    obtain ⟨tenantId, x, he, -⟩ := hr
    exact ⟨tenantId, by rw [he]; rfl⟩
  obtain ⟨tenantId, hi⟩ := hissued
  obtain ⟨ip, userAgent, lc, hcall, hvetted⟩ := login_of_issued hlog hi
  obtain ⟨-, m, i, ds, hrows, hid, hbasis⟩ := hvetted _ _ _ hi
  refine ⟨n, c, o, rfl, hr, m, i, ds, hrows, hid, ?_⟩
  have hlogo : (clientRun w s call l).log = (newer ++ n ++ [c]) ++ o := by
    rw [hlog]
    simp
  have hclocks := clocks_subset_instants hlogo c.who
  cases lc with
  | completeMfa mfaToken code => cases hbasis.1
  | forceChange changeToken newPassword retypePassword =>
    -- It ran no gate check; the condition on the run stands in for it.
    obtain ⟨⟨-, hmfa⟩, hread, haccess⟩ := hbasis
    obtain ⟨newer', id, older', hown, hm⟩ := hread
    obtain ⟨n', d, o', rfl, hwho, he, ho'⟩ := own_split hown
    have hlogd : (clientRun w s call l).log = (newer ++ n ++ c :: n') ++ d :: o' := by
      rw [hlog]
      simp
    obtain ⟨row, hrow, rfl⟩ := row_of_getById hlogd he
    obtain ⟨hms, his, hlock⟩ := hforce _ d o' hlogd ip userAgent changeToken newPassword
      retypePassword (by rw [hwho, hcall]) id row (by rw [he]) hrow hmfa m
      (by rw [hwho, ho']; exact hm)
    refine ⟨hms, his, fun t ht => ⟨d.before.now, ⟨d, by simp, hwho, rfl⟩, hlock t ht⟩,
      fun v hv => ?_⟩
    obtain ⟨t, ht, hlt⟩ := haccess v hv
    exact ⟨t, hclocks ht, hlt⟩
  | _ => exact hbasis.2.1.mono hclocks

/-- What a call that has redeemed a challenge shows, in a run that meets the condition. -/
theorem redeemsChallenge_of_redeemed (hw : FreshTokens w) (hs : s.db.mfaChallenges = ∅)
    (hforce : ForceChangesGated call (clientRun w s call l).log)
    (hlog : (clientRun w s call l).log = newer ++ older) {i : ι} {mfaToken code tenantId : String}
    {row : MembershipRow} {identity : Identity}
    (hred : Redeemed w mfaToken code tenantId row identity (own i older)) :
    RedeemsChallenge i older mfaToken tenantId row.id := by
  -- The move that a history shows, its state, and the invariant there.
  have hmove : ∀ e ∈ own i older, ∃ n m o, older = n ++ m :: o ∧ m.who = i ∧ m.event = e ∧
      ChallengeInv w m.before o ∧ m.event.reply = (handle w m.event.request m.before).1 := by
    intro e he
    obtain ⟨m, hm, hwho, hme⟩ := mem_own.mp he
    obtain ⟨n, o, rfl⟩ := List.append_of_mem hm
    rw [← List.append_assoc] at hlog
    obtain ⟨l', hlog', hstate, hreply⟩ := clientRun_split hlog
    have hinv := run_challengeInv hw hs call l'
    rw [hlog', hstate] at hinv
    exact ⟨n, m, o, rfl, hwho, hme, hinv, hreply⟩
  obtain ⟨ch, u, hget, rfl, huser, rfl⟩ := hred.challenge
  -- The lookup of the challenge found an unexpired row, which some move had inserted.
  obtain ⟨n₁, g, o₁, hold₁, hwho₁, hev₁, hinv₁, hrep₁⟩ := hmove _ hget
  rw [hev₁] at hrep₁
  obtain ⟨r, hrow, rfl⟩ := Option.map_eq_some_iff.mp (Except.ok.inj hrep₁).symm
  have hmem : r ∈ g.before.db.mfaChallenges := Table.selectOne_mem hrow
  have hpos := Table.selectOne_pos hrow
  simp only [Bool.and_eq_true, decide_eq_true_eq] at hpos
  obtain ⟨htoken, hexp⟩ := hpos
  obtain ⟨c, hc, hcr⟩ := hinv₁.rows r hmem
  have hc' : c ∈ older := by
    rw [hold₁]
    exact List.mem_append_right _ (List.mem_cons_of_mem _ hc)
  -- The membership is the one the challenge names.
  obtain ⟨n₂, m, o₂, -, -, hev₂, -, hrep₂⟩ := hmove _ huser
  rw [hev₂] at hrep₂
  have hid : u.id = r.userId := by
    have hfound := List.find?_some (Except.ok.inj hrep₂).symm
    simp only [Bool.and_eq_true, decide_eq_true_eq] at hfound
    exact hfound.2
  -- The delete touched a row of the same token, so of the same insert.
  have hdelete : did (.challenges (.delete mfaToken)) 1 ∈ own i older := by
    have hone : (mfaToken, 1) ∈ (own i older).filterMap redemptionOf := by
      rw [hred.redeemed]
      exact List.mem_singleton_self _
    obtain ⟨e, he, heq⟩ := List.mem_filterMap.mp hone
    rwa [redemptionOf_eq_some.mp heq] at he
  obtain ⟨n₃, d, o₃, hold₃, hwho₃, hev₃, hinv₃, hrep₃⟩ := hmove _ hdelete
  rw [hev₃] at hrep₃
  have hcount : d.before.db.mfaChallenges.affected (fun r => r.token = mfaToken) = 1 :=
    (Except.ok.inj hrep₃).symm
  obtain ⟨r', hr', hrt⟩ := Table.affected_pos.mp (hcount ▸ Nat.one_pos)
  obtain ⟨c', hc₃, hcr'⟩ := hinv₃.rows r' hr'
  have hsame : c' = c := by
    have hold : ∀ x ∈ older, x ∈ (clientRun w s call l).log := by
      intro x hx
      rw [hlog]
      exact List.mem_append_right _ hx
    have hc₃' : c' ∈ older := by
      rw [hold₃]
      exact List.mem_append_right _ (List.mem_cons_of_mem _ hc₃)
    have hrt' : r'.token = r.token := (by simpa using hrt : r'.token = mfaToken).trans htoken.symm
    exact eq_of_stamp (run_challengeInv hw hs call l).once (hold _ hc₃') (hold _ hc')
      (hrt' ▸ hcr'.insertedToken_eq) hcr.insertedToken_eq
  refine ⟨hred.redeemed, r, htoken, rfl, hid.symm, ⟨g, ?_, hwho₁, by rw [hev₁], hmem, hexp⟩,
    ⟨d, ?_, hwho₃, hev₃, r', hr', hcr'.same (hsame ▸ hcr)⟩, issuedOnGates_of_inserts hforce hlog hc' hcr⟩
  · rw [hold₁]
    exact List.mem_append_right _ List.mem_cons_self
  · rw [hold₃]
    exact List.mem_append_right _ List.mem_cons_self

/-- **The second factor is upheld in every run** that meets the condition. -/
theorem run_secondFactorUpheld (w : World) (hw : FreshTokens w) (s : State)
    (hs : s.db.mfaChallenges = ∅) (call : ι → ClientCall) (l : List (ι ⊕ Nat))
    (hforce : ForceChangesGated call (clientRun w s call l).log) :
    SecondFactorUpheld w call (clientRun w s call l).log := by
  constructor
  · intro newer m older hlog tenantId userId hi identity hid hmfa
    obtain ⟨ip, userAgent, c, hcall, hvetted⟩ := login_of_issued hlog hi
    obtain ⟨-, row, i, ds, hrows, rfl, hbasis⟩ := hvetted _ _ _ hi
    rw [hrows.identities, List.mem_singleton] at hid
    subst hid
    have hlogo : (clientRun w s call l).log = (newer ++ [m]) ++ older := by
      rw [hlog]
      simp
    cases c with
    | completeMfa mfaToken code =>
      exact ⟨ip, userAgent, mfaToken, code, hcall, hbasis.2.2.verified,
        redeemsChallenge_of_redeemed hw hs hforce hlogo hbasis.2.2⟩
    | _ =>
      have hoff : identity.mfaEnabled = false := hbasis.1.2
      rw [hmfa] at hoff
      cases hoff
  · intro m hm m' hm' k k' mfaToken hk hk' hred hred'
    have hinv := run_challengeInv hw hs call l
    -- The two deletes are one move, so the two calls are one.
    have hmove : ∀ j, (mfaToken, 1) ∈ (own j (clientRun w s call l).log).filterMap redemptionOf →
        ∃ d ∈ (clientRun w s call l).log, d.who = j ∧ redeemedToken d = some mfaToken := by
      intro j hj
      obtain ⟨e, he, heq⟩ := List.mem_filterMap.mp hj
      obtain ⟨d, hd, hwho, hde⟩ := mem_own.mp he
      exact ⟨d, hd, hwho, redeemedToken_eq_some.mpr (hde.trans (redemptionOf_eq_some.mp heq))⟩
    obtain ⟨d, hd, hwho, hdt⟩ := hmove _ hred
    obtain ⟨d', hd', hwho', hdt'⟩ := hmove _ hred'
    obtain rfl := eq_of_stamp hinv.redeemedOnce hd hd' hdt hdt'
    have hsame : m.who = m'.who := hwho.symm.trans hwho'
    -- Within one call every store goes under one key.
    have hkey : ∀ (x y : Move authrs ι State) kx ky, x.who = y.who →
        sessionKey x.event.request = some kx → sessionKey y.event.request = some ky →
        (∃ n o, (clientRun w s call l).log = n ++ x :: o ∧ y ∈ o) → ky = kx := by
      rintro x y kx ky hxy hx hy ⟨n, o, hlog, hyo⟩
      have hi : issued x.event.request ≠ none := by
        intro hnone
        rw [sessionKey_of_unissued hnone] at hx
        cases hx
      obtain ⟨⟨kind, tenantId, userId⟩, hi⟩ := Option.ne_none_iff_exists'.mp hi
      obtain ⟨ip, userAgent, c, hcall, hvetted⟩ := login_of_issued hlog hi
      exact (hvetted _ _ _ hi).1.session kx hx y.event (mem_own.mpr ⟨y, hyo, hxy.symm, rfl⟩) ky hy
    refine ⟨hsame, ?_⟩
    rcases eq_or_earlier hm hm' with rfl | hearlier | hearlier
    · exact Option.some.inj (hk.symm.trans hk')
    · exact (hkey m m' k k' hsame hk hk' hearlier).symm
    · exact hkey m' m k' k hsame.symm hk' hk hearlier

end Runs

/-! ### Two runs -/

/-- An identity with MFA enabled, its membership, and a change token; perhaps it is locked. -/
def enrolled (lockedUntil : Option Time) : State :=
  .ofDb { Db.empty with
    tenants := .single ⟨"acme", "Acme", "active", 0⟩
    identities := .single { IdentityRow.ofHandles ⟨0, id, fun _ => 7⟩ (some "ann@acme.example") none none
      none none (some ":correct horse") with
        mfaEnabled := true
        mfaSecret := some "!A"
        lockedUntil := lockedUntil }
    users := .single ⟨1, "acme", 7, none, "active", none, 0, 0⟩
    forceChangeTokens := .single ⟨"acme", 1, "t", minutes 10⟩ } 0

/-- A login with a verified code, and its second factor. -/
def loginTwice : Bool → ClientCall
  | false => .login none none (.verifiedOtp "acme" "ann@acme.example")
  | true => .login none none (.completeMfa "x" "000000")

theorem run_secondFactorUpheld_loginTwice :
    SecondFactorUpheld .offline loginTwice (clientRun .offline (enrolled none) loginTwice
      (List.replicate 10 (Sum.inl false) ++ List.replicate 25 (Sum.inl true))).log := by
  refine run_secondFactorUpheld .offline World.offline_freshTokens (enrolled none) rfl loginTwice
    _ ?_
  intro newer d older hlog ip userAgent changeToken newPassword retypePassword hcall
  cases hwho : d.who with
  | false =>
    rw [hwho] at hcall
    cases hcall
  | true =>
    rw [hwho] at hcall
    cases hcall

/-- A forced password change of a locked identity, and the second factor for its challenge. -/
def changeLocked : Bool → ClientCall
  | false => .login none none (.forceChange "t" "S3cret" "S3cret")
  | true => .login none none (.completeMfa "xx" "222222")

/-- The run: the challenge is issued under the lock, and redeemed a minute later. -/
def changeLockedLog : List (Move authrs Bool State) :=
  (clientRun .offline (enrolled (some (seconds 60))) changeLocked
    (List.replicate 15 (Sum.inl false) ++ [Sum.inr 61000000] ++ List.replicate 25 (Sum.inl true))).log

/-- The newest move stores the session, and the only call that inserts a challenge made all its
exchanges while the identity it had read was locked. -/
theorem changeLockedLog_facts :
    (changeLockedLog.head?.map fun m => issued m.event.request) =
        some (some (.session, "acme", 1)) ∧
      (∃ m ∈ changeLockedLog.head?, ∃ i ∈ (own m.who changeLockedLog.tail).filterMap identityOf,
        i.mfaEnabled = true) ∧
      (∀ c ∈ changeLockedLog, insertedToken c ≠ none → c.who = false) ∧
      (∀ c ∈ changeLockedLog, c.who = false → c.before.now = 0) ∧
      ∀ c ∈ changeLockedLog, c.who = false → ∀ i ∈ identityOf c.event,
        i.lockedUntil = some (seconds 60) := by
  decide +kernel

/-- A session on a challenge that was issued to a locked identity. -/
theorem changeLocked_not_upheld :
    ¬ SecondFactorUpheld .offline changeLocked (clientRun .offline (enrolled (some (seconds 60)))
      changeLocked (List.replicate 15 (Sum.inl false) ++ [Sum.inr 61000000] ++
        List.replicate 25 (Sum.inl true))).log := by
  change ¬ SecondFactorUpheld .offline changeLocked changeLockedLog
  intro hupheld
  obtain ⟨hsession, hmfa, hinsert, hnow, hlocked⟩ := changeLockedLog_facts
  cases hlog : changeLockedLog with
  | nil =>
    rw [hlog] at hsession
    cases hsession
  | cons m older =>
    rw [hlog] at hsession hmfa hinsert hnow hlocked
    obtain ⟨_, ⟨⟩, i, hi, hon⟩ := hmfa
    obtain ⟨_, _, _, _, -, -, -, r, -, -, -, -, -, newer, c, oldest, rfl, hc, m', i', ds, hrows, -,
      hgates⟩ := hupheld.second [] m older hlog "acme" 1 (Option.some.inj hsession) i hi hon
    have hmem : ∀ x ∈ oldest, x ∈ m :: (newer ++ c :: oldest) := by
      intro x hx
      simp [hx]
    have hwho : c.who = false := by
      refine hinsert c (by simp) ?_
      rw [hc.insertedToken_eq]
      simp
    -- The identity the inserter had read was locked at each of its instants.
    have hread : i' ∈ (own c.who oldest).filterMap identityOf := by
      rw [hrows.identities]
      exact List.mem_singleton_self _
    obtain ⟨e, he, hei⟩ := List.mem_filterMap.mp hread
    obtain ⟨x, hx, hxwho, rfl⟩ := mem_own.mp he
    obtain ⟨t, ⟨y, hy, hywho, rfl⟩, hlt⟩ := hgates.unlocked _
      (hlocked x (hmem x hx) (hxwho.trans hwho) i' hei)
    refine hlt ?_
    rw [hnow y (hmem y hy) (hywho.trans hwho)]
    decide

end Authrs
