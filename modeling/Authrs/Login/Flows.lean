import Authrs.Interaction.Tickets
import Authrs.Login.FlowCalls
import Authrs.Store.Runs

/-!
# Flows of the OAuth routes

Redirects and callbacks run side by side, and whatever else goes on leaves the pending states alone.
A state is a ticket: a redirect stores it, and the statement that looks it up removes it. So every
sign-in belongs to one redirect, with the tenant, the provider, the verifier and the nonce of that
redirect, and no two sign-ins belong to the same one.

## Main definitions

* `Besides`: what goes on besides the calls
* `flowRun`: redirects and callbacks, side by side
* `FlowRedeemed`: a callback has taken the state that a redirect stored
* `SignsIn`: a callback signs somebody in, for a redirect
* `FlowBound`: the exchange and the sign-in of a callback are bound to a redirect

## Main results

* `run_flowBound`: every exchange and every sign-in is bound to a redirect
* `run_flowsOnce`: a redirect serves one callback, and so does an ID token
-/

namespace Authrs

open Interaction Relational Program

/-- What goes on besides the calls: it stores no state, and turns back neither the clock nor the
streams of random values. -/
structure Besides where
  act : State → State
  states : ∀ s, ∀ r ∈ (act s).db.oauthStates, r ∈ s.db.oauthStates
  draws : ∀ s, s.draws ≤ (act s).draws

variable {ι : Type}

/-! ### Pending states -/

/-- **Pending states are tickets.** -/
def pendingStates : Tickets authrs OauthStateRow State where
  issues
    | .sql (.oauth (.insertState state tenantId provider pkceVerifier nonce expiresAt)), s =>
      match insertOauthState s.db state tenantId provider pkceVerifier nonce expiresAt with
      | .ok (_, db) => db.oauthStates.rows.head?
      | .error _ => none
    | _, _ => none
  takes
    | .sql (.oauth (.takeState state)), s =>
      s.db.oauthStates.selectOne (OauthStateRow.takenBy s.now state)
    | _, _ => none
  pending s r := r ∈ s.db.oauthStates

section Tickets

variable {w : World} {s : State} {q : Request} {r : OauthStateRow}

/-- A state is issued by an insert that succeeds, as it stores it. -/
theorem issues_eq_some (h : pendingStates.issues q s = some r) :
    ∃ state tenantId provider pkceVerifier nonce,
      q = .sql (.oauth (.insertState state tenantId provider pkceVerifier nonce r.expiresAt)) ∧
      varcharReq 255 state = .ok r.state ∧ varcharReq 255 tenantId = .ok r.tenantId ∧
      varcharReq 50 provider = .ok r.provider ∧ varcharReq 255 pkceVerifier = .ok r.pkceVerifier ∧
      varcharReq 255 nonce = .ok r.nonce := by
  unfold pendingStates at h
  simp only at h
  split at h
  · rename_i state tenantId provider pkceVerifier nonce expiresAt
    cases hins : insertOauthState s.db state tenantId provider pkceVerifier nonce expiresAt with
    | error e =>
      rw [hins] at h
      cases h
    | ok res =>
      obtain ⟨n, db⟩ := res
      obtain ⟨row, t, hs, ht, hp, hv, hn, hexp, htable, rfl⟩ := insertOauthState_ok hins
      rw [hins] at h
      simp only [Table.rows_of_insert? htable, List.head?_cons, Option.some.injEq] at h
      subst h
      exact ⟨state, tenantId, provider, pkceVerifier, nonce, by rw [hexp], hs, ht, hp, hv, hn⟩
  · cases h

/-- A state is taken by presenting it before it expires. -/
theorem takes_eq_some (h : pendingStates.takes q s = some r) :
    q = .sql (.oauth (.takeState r.state)) ∧ r ∈ s.db.oauthStates ∧ s.now < r.expiresAt := by
  unfold pendingStates at h
  simp only at h
  split at h
  · rename_i state
    have hpos := Table.selectOne_pos h
    simp only [OauthStateRow.takenBy, Bool.and_eq_true, decide_eq_true_eq] at hpos
    exact ⟨by rw [hpos.1], Table.selectOne_mem h, hpos.2⟩
  · cases h

/-- A pending state that is presented in time is taken. -/
theorem takes_of_stored (hr : r ∈ s.db.oauthStates) (htime : s.now < r.expiresAt) :
    pendingStates.takes (.sql (.oauth (.takeState r.state))) s = some r := by
  have hpos : OauthStateRow.takenBy s.now r.state r = true := by
    simpa [OauthStateRow.takenBy] using htime
  obtain ⟨x, hx⟩ := Table.selectOne_isSome hr hpos
  have hkey := Table.selectOne_pos hx
  simp only [OauthStateRow.takenBy, Bool.and_eq_true, decide_eq_true_eq] at hkey
  change s.db.oauthStates.selectOne (OauthStateRow.takenBy s.now r.state) = some r
  rw [hx, Table.eq_of_key_eq (Table.selectOne_mem hx) hr hkey.1]

theorem pendingStates_lawful (w : World) : pendingStates.Lawful (handle w) Besides.act where
  taken _ _ _ h := (takes_eq_some h).2.1
  stays := by
    intro q s r hr
    change r ∈ (handle w q s).2.db.oauthStates at hr
    -- Only the statements on OAuth states touch the table.
    have hother : (∀ x, q ≠ .sql (.oauth x)) →
        pendingStates.issues q s = some r ∨ (r ∈ s.db.oauthStates ∧ pendingStates.takes q s ≠ some r) := by
      intro hq
      have hsame : (handle w q s).2.db.oauthStates = s.db.oauthStates := by
        rcases handle_frame w s q with ⟨x, rfl, hx⟩ | hdb
        · exact hx.oauthStates fun y hy => hq y (congrArg _ hy)
        · rw [hdb]
      rw [hsame] at hr
      refine .inr ⟨hr, fun htake => ?_⟩
      exact hq _ (takes_eq_some htake).1
    cases q with
    | sql x =>
      cases x with
      | oauth x =>
        cases x with
        | deleteExpired =>
          exact .inr ⟨(Table.mem_delete.mp hr).1, by simp [pendingStates]⟩
        | takeState state =>
          obtain ⟨hold, hkept⟩ := Table.mem_delete.mp hr
          refine .inr ⟨hold, fun htake => ?_⟩
          -- The row that was taken is the one that the delete removes.
          have hpos : OauthStateRow.takenBy s.now state r = true := Table.selectOne_pos htake
          change OauthStateRow.takenBy s.now state r = false at hkept
          rw [hpos] at hkept
          cases hkept
        | insertState state tenantId provider pkceVerifier nonce expiresAt =>
          cases hins : insertOauthState s.db state tenantId provider pkceVerifier nonce expiresAt with
          | error e =>
            have hsame : (handle w (.sql (.oauth (.insertState state tenantId provider pkceVerifier
                nonce expiresAt))) s).2.db = s.db := by
              simp only [handle, State.afterSql, Sql.exec, OauthStmt.exec, hins]
            rw [hsame] at hr
            exact .inr ⟨hr, by simp [pendingStates]⟩
          | ok res =>
            obtain ⟨n, db⟩ := res
            obtain ⟨row, t, -, -, -, -, -, -, htable, rfl⟩ := insertOauthState_ok hins
            have hafter : (handle w (.sql (.oauth (.insertState state tenantId provider pkceVerifier
                nonce expiresAt))) s).2.db.oauthStates = t := by
              simp only [handle, State.afterSql, Sql.exec, OauthStmt.exec, hins]
            rw [hafter] at hr
            rcases (Table.mem_insert? htable).mp hr with rfl | hold
            · left
              simp [pendingStates, hins, Table.rows_of_insert? htable]
            · exact .inr ⟨hold, by simp [pendingStates]⟩
        | getLinkedIdentity provider providerUserId =>
          exact .inr ⟨hr, by simp [pendingStates]⟩
        | link identityId provider providerUserId email =>
          have hsame : (handle w (.sql (.oauth (.link identityId provider providerUserId email)))
              s).2.db.oauthStates = s.db.oauthStates := by
            rcases handle_db (w := w) (s := s) (.sql (.oauth (.link identityId provider providerUserId
              email))) with hdb | ⟨x, res, hx, hexec⟩
            · rw [hdb]
            · cases hx
              obtain ⟨_, _, -, -, -, -, -, hdb⟩ := insertOauthAccount_ok hexec
              rw [hdb]
          rw [hsame] at hr
          exact .inr ⟨hr, by simp [pendingStates]⟩
      | _ => exact hother fun x hx => by cases hx
    | _ => exact hother fun x hx => by cases hx
  passes t s r hr := t.states s r hr

end Tickets

/-! ### Runs -/

/-- A sign-in and the redirect behind it: the row of the state, the move that stored it and the
move that took it. -/
structure Flow (ι : Type) where
  provider : Provider
  row : OauthStateRow
  start : Move authrs ι State
  take : Move authrs ι State

variable [DecidableEq ι]

/-- **A redirect has started a flow**: it has drawn the state, the verifier and the nonce, and stores
them for its tenant, to expire ten minutes after it looked at the clock. -/
structure Started (call : ι → FlowCall) (older : List (Move authrs ι State)) (f : Flow ι) : Prop where
  redirect : ∃ tenantId provider, call f.start.who = .redirect tenantId provider ∧
    Provider.parse provider = .ok f.provider ∧ tenantId.val = f.row.tenantId
  provider : f.row.provider = f.provider.asStr
  stores : f.start.event.request = .sql (.oauth (.insertState f.row.state f.row.tenantId
    f.row.provider f.row.pkceVerifier f.row.nonce f.row.expiresAt))
  drawn : ∀ t ∈ [f.row.state, f.row.pkceVerifier, f.row.nonce],
    (⟨.randomToken, t⟩ : Event authrs) ∈ own f.start.who older
  expires : ∃ now, (⟨.clock, now⟩ : Event authrs) ∈ own f.start.who older ∧
    f.row.expiresAt = now + minutes STATE_TTL_MINS

/-- **A call has redeemed a flow**: it has taken the state that the redirect stored, in time. -/
structure FlowRedeemed (call : ι → FlowCall) (older : List (Move authrs ι State)) (who : ι)
    (f : Flow ι) : Prop where
  order : ∃ after between before, older = after ++ f.take :: (between ++ f.start :: before) ∧
    Started call before f
  taker : f.take.who = who
  taken : f.take.event = did (.oauth (.takeState f.row.state)) (some f.row.toState)
  stored : f.row ∈ f.take.before.db.oauthStates
  inTime : f.take.before.now < f.row.expiresAt

/-- A request with which a callback goes beyond the exchange. -/
def goesBeyond : Request → Bool
  | .sql (.oauth (.takeState _)) => false
  | .http (.postForm ..) => false
  | q => !looks q

/-- **A callback signs somebody in**, for the flow: it has proved an ID token with the nonce of the
flow, and what it asks for is for the tenant of the flow and the account of that token. -/
def SignsIn (w : World) (call : ι → FlowCall) (older : List (Move authrs ι State))
    (m : Move authrs ι State) (f : Flow ι) (idToken : String) : Prop :=
  ∃ tenantId provider query code cfg claims profile,
    call m.who = .callback tenantId provider query ∧ Provider.parse provider = .ok f.provider ∧
    callbackParams query = .ok (code, f.row.state) ∧ FlowRedeemed call older m.who f ∧
    Proved w f.provider code f.row.state f.row.toState cfg idToken claims (own m.who older) ∧
    OauthService.profileFromClaims w f.provider claims = .ok profile ∧
    (∀ T ∈ tenantId, T.val = f.row.tenantId) ∧
    SignInRequest f.row.tenantId f.provider.asStr profile m.event.request

/-- **A callback sends the code to the token endpoint**, for the flow: of the configured client of
the flow's tenant, with the verifier of the flow. -/
def ExchangesFor (w : World) (call : ι → FlowCall) (older : List (Move authrs ι State))
    (m : Move authrs ι State) (url : String) (form : List (String × String)) (f : Flow ι) : Prop :=
  ∃ tenantId provider query code cfg,
    call m.who = .callback tenantId provider query ∧ Provider.parse provider = .ok f.provider ∧
    callbackParams query = .ok (code, f.row.state) ∧ FlowRedeemed call older m.who f ∧
    Consumed w f.provider f.row.state f.row.toState cfg (own m.who older) ∧
    url = w.endpoints.tokenUrl f.provider cfg ∧
    form = OauthService.tokenForm cfg code f.row.pkceVerifier

/-- **The exchange and the sign-in of a callback are bound to a redirect.** -/
def FlowBound (w : World) (call : ι → FlowCall) (older : List (Move authrs ι State))
    (m : Move authrs ι State) : Prop :=
  ∀ tenantId provider query, call m.who = .callback tenantId provider query →
    (∀ url form, m.event.request = .http (.postForm url form) →
      ∃ f, ExchangesFor w call older m url form f) ∧
    (goesBeyond m.event.request = true → ∃ f idToken, SignsIn w call older m f idToken)

/-- Redirects and callbacks, side by side. -/
abbrev flowRun (w : World) (s : State) (call : ι → FlowCall) (l : List (ι ⊕ Besides)) :
    Config authrs Failure Unit ι State :=
  (Config.start s fun i => (call i).run w).run (handle w) Besides.act l

section Runs

variable {w : World} {s : State} {call : ι → FlowCall} {l : List (ι ⊕ Besides)}
  {newer older : List (Move authrs ι State)} {m : Move authrs ι State}

/-- Every move is a step of its call. -/
theorem flowRun_step (hlog : (flowRun w s call l).log = newer ++ m :: older) :
    (call m.who).Step w (own m.who older) m.event :=
  Config.run_guaranteed (C := fun i => (call i).contract w) (Q := fun _ _ _ => True)
    (fun i => (call i).run_keeps w) (fun _ _ _ => trivial) l newer m older hlog

/-- The tokens drawn in a run are distinct. -/
theorem flowRun_drawn (hw : FreshTokens w) (s : State) (call : ι → FlowCall)
    (l : List (ι ⊕ Besides)) : Drawn w (flowRun w s call l).state (flowRun w s call l).log := by
  refine Config.run_invariant (C := fun i => (call i).contract w) (Q := fun _ _ _ => True)
    (J := Drawn w) (fun i => (call i).run_keeps w) (fun _ _ _ => trivial) ?_ ?_ ?_ l
  · exact ⟨by simp, List.nodup_nil⟩
  · intro s' log i q hd _
    exact hd.move hw i q
  · intro s' log t hd
    refine ⟨fun k hk => ?_, hd.once⟩
    obtain ⟨n, hn, rfl⟩ := hd.below k hk
    exact ⟨n, Nat.lt_of_lt_of_le hn (t.draws s'), rfl⟩

/-- A state is stored by a redirect, with what it has drawn. -/
theorem stored_by_redirect {c : FlowCall} {h : List (Event authrs)} {e : Event authrs}
    {state tenantId provider verifier nonce : String} {expiresAt : Time} (hstep : c.Step w h e)
    (he : e.request = .sql (.oauth (.insertState state tenantId provider verifier nonce
      expiresAt))) :
    ∃ T prov p row now n, c = .redirect T prov ∧ Provider.parse prov = .ok p ∧ tenantId = T.val ∧
      provider = p.asStr ∧ expiresAt = now + minutes STATE_TTL_MINS ∧
      h = [did (.oauth .deleteExpired) n, ⟨.clock, now⟩, ⟨.randomToken, nonce⟩,
        ⟨.randomToken, verifier⟩, ⟨.randomToken, state⟩,
        did (.kv (.get T.val "oauth" p.asStr)) row] := by
  cases c with
  | redirect T prov =>
    cases hstep with
    | look hq =>
      rw [he] at hq
      cases hq
    | draw hq =>
      rw [he] at hq
      cases hq
    | purge hq =>
      rw [he] at hq
      cases hq
    | store hp hq =>
      rw [he] at hq
      cases hq
      exact ⟨T, prov, _, _, _, _, rfl, hp, rfl, rfl, rfl, rfl⟩
  -- A callback inserts no state.
  | callback T prov query =>
    cases hstep with
    | take _ hq =>
      rw [he] at hq
      cases hq
    | look hq =>
      rw [he] at hq
      cases hq
    | exchange _ _ _ hq =>
      rw [he] at hq
      cases hq
    | signIn _ _ _ _ _ hq =>
      rw [he] at hq
      cases hq with
      | tail ht => cases ht

/-- A token that a call has drawn is one of the stream. -/
theorem token_of_own (hd : Drawn w s older) {i : ι} {t : String}
    (ht : (⟨.randomToken, t⟩ : Event authrs) ∈ own i older) : ∃ n, t = w.token n := by
  obtain ⟨x, hx, -, he⟩ := mem_own.mp ht
  obtain ⟨n, -, hn⟩ := hd.below t (List.mem_filterMap.mpr ⟨x, hx, drawnToken_eq_some.mpr he⟩)
  exact ⟨n, hn⟩

omit [DecidableEq ι] in
/-- The tokens of an earlier part of a run. -/
theorem Drawn.earlier (hd : Drawn w s (newer ++ older)) : Drawn w s older := by
  have hsub : older.Sublist (newer ++ older) := List.sublist_append_right _ _
  exact ⟨fun t ht => hd.below t ((hsub.filterMap _).subset ht), hd.once.sublist (hsub.filterMap _)⟩

theorem asStr_stored {p : Provider} {t : String} (h : varcharReq 50 p.asStr = .ok t) :
    t = p.asStr := by
  refine varchar_of_no_blank (varcharReq_ok h) ?_
  cases p <;> simp [Provider.asStr]

/-- **An issued state belongs to a redirect.** -/
theorem started_of_issues (hw : FreshTokens w) {x : Move authrs ι State} {r : OauthStateRow}
    (hlog : (flowRun w s call l).log = newer ++ x :: older) (hx : pendingStates.Issues x r)
    (y : Move authrs ι State) : ∃ p, Started call older ⟨p, r, x, y⟩ := by
  obtain ⟨state, tenantId, provider, verifier, nonce, hq, hs, ht, hp, hv, hn⟩ := issues_eq_some hx
  obtain ⟨T, prov, p, row, now, n, hcall, hparse, rfl, rfl, hexp, hown⟩ :=
    stored_by_redirect (flowRun_step hlog) hq
  have hd : Drawn w (flowRun w s call l).state older := by
    have hall := flowRun_drawn hw s call l
    rw [hlog] at hall
    have hcons : newer ++ x :: older = (newer ++ [x]) ++ older := by simp
    rw [hcons] at hall
    exact hall.earlier
  -- What was drawn is stored as it is.
  have hstored : ∀ {t t' : String} {k : Nat},
      (⟨.randomToken, t⟩ : Event authrs) ∈ own x.who older → varcharReq k t = .ok t' → t' = t := by
    intro t t' k hmem hstore
    obtain ⟨j, rfl⟩ := token_of_own hd hmem
    exact hw.varcharReq_token hstore
  have hstate : r.state = state := hstored (by rw [hown]; simp) hs
  have hverifier : r.pkceVerifier = verifier := hstored (by rw [hown]; simp) hv
  have hnonce : r.nonce = nonce := hstored (by rw [hown]; simp) hn
  have htenant : r.tenantId = T.val := varcharReq_tenantId ht
  have hprovider : r.provider = p.asStr := asStr_stored hp
  refine ⟨p, ⟨T, prov, hcall, hparse, htenant.symm⟩, hprovider, ?_, ?_, now, ?_, hexp⟩
  · change x.event.request = .sql (.oauth (.insertState r.state r.tenantId r.provider r.pkceVerifier
      r.nonce r.expiresAt))
    rw [hq, hstate, htenant, hprovider, hverifier, hnonce]
  · intro t htok
    change t ∈ [r.state, r.pkceVerifier, r.nonce] at htok
    change _ ∈ own x.who older
    rw [hown]
    rw [hstate, hverifier, hnonce] at htok
    simp only [List.mem_cons, List.not_mem_nil, or_false] at htok
    rcases htok with rfl | rfl | rfl
    · simp
    · simp
    · simp
  · change _ ∈ own x.who older
    rw [hown]
    simp

/-- **A state that a call has taken belongs to a redirect**, for the provider of its row. -/
theorem redeemed_of_taken (hw : FreshTokens w) (hs : ∀ r, r ∉ s.db.oauthStates)
    (hlog : (flowRun w s call l).log = newer ++ m :: older) {state : String} {pending : OauthState}
    (htaken : did (.oauth (.takeState state)) (some pending) ∈ own m.who older) :
    ∃ f : Flow ι, f.row.state = state ∧ f.row.toState = pending ∧
      FlowRedeemed call older m.who f := by
  obtain ⟨y, hy, hwho, hevent⟩ := mem_own.mp htaken
  obtain ⟨after, rest, rfl⟩ := List.append_of_mem hy
  have hlogy : (flowRun w s call l).log = (newer ++ m :: after) ++ y :: rest := by simp [hlog]
  obtain ⟨-, -, -, -, -, -, hreply⟩ := Config.run_log_split l hlogy
  -- The reply is the row that the statement found and removed.
  have htakes : ∃ r, pendingStates.Takes y r ∧ r.toState = pending := by
    unfold Tickets.Takes
    rw [hevent] at hreply ⊢
    have hrow := Except.ok.inj hreply
    obtain ⟨r, hr, hpending⟩ := Option.map_eq_some_iff.mp hrow.symm
    exact ⟨r, hr, hpending⟩
  obtain ⟨r, htake, rfl⟩ := htakes
  obtain ⟨hq, hstored, htime⟩ := takes_eq_some htake
  have hstate : r.state = state := by
    rw [hevent] at hq
    cases hq
    rfl
  obtain ⟨between, x, before, rfl, hissue, -⟩ :=
    Tickets.run_taken (pendingStates_lawful w) hs l _ y rest hlogy r htake
  have hlogx : (flowRun w s call l).log =
      (newer ++ m :: (after ++ y :: between)) ++ x :: before := by simp [hlog]
  obtain ⟨p, hstarted⟩ := started_of_issues hw hlogx hissue y
  refine ⟨⟨p, r, x, y⟩, hstate, rfl, ⟨after, between, before, rfl, hstarted⟩, hwho, ?_, hstored,
    htime⟩
  rw [hevent, hstate]

/-- A flow is for the provider that its row names. -/
theorem FlowRedeemed.provider {who : ι} {f : Flow ι} (hf : FlowRedeemed call older who f)
    {p : Provider} (hp : f.row.toState.provider = p.asStr) : p = f.provider := by
  obtain ⟨_, _, _, -, hstarted⟩ := hf.order
  exact Provider.asStr_injective (hp.symm.trans hstarted.provider)

/-- **Every exchange and every sign-in of a callback is bound to a redirect** for the same provider,
whose state it has taken in time: the tenant, the verifier and the nonce are those of the redirect. -/
theorem run_flowBound (w : World) (hw : FreshTokens w) (s : State)
    (hs : ∀ r, r ∉ s.db.oauthStates) (call : ι → FlowCall) (l : List (ι ⊕ Besides)) :
    EachMove (FlowBound w call) (flowRun w s call l).log := by
  intro newer m older hlog tenantId provider query hcall
  have hstep := flowRun_step hlog
  rw [hcall] at hstep
  generalize hown : own m.who older = h at hstep
  -- Only the exchange and the sign-in lie beyond the look-up of the flow.
  cases hstep with
  | take _ hq =>
    rw [hq]
    exact ⟨nofun, nofun⟩
  | look hq =>
    constructor
    · intro url form hpost
      rw [hpost] at hq
      cases hq
    · intro hbeyond
      unfold goesBeyond at hbeyond
      split at hbeyond
      · cases hbeyond
      · cases hbeyond
      · rw [hq] at hbeyond
        cases hbeyond
  | exchange hp hquery hconsumed hq =>
    rw [hq]
    refine ⟨fun url form hpost => ?_, nofun⟩
    obtain ⟨rfl, rfl⟩ := HttpRequest.postForm.inj (Request.http.inj hpost)
    subst hown
    -- The row that the call has deleted was stored by a redirect.
    obtain ⟨f, rfl, rfl, hf⟩ := redeemed_of_taken hw hs hlog hconsumed.taken
    obtain rfl := hf.provider hconsumed.provider
    exact ⟨f, tenantId, provider, query, _, _, hcall, hp, hquery, hf, hconsumed, rfl, rfl⟩
  | signIn hp hquery hproved hprofile hheader hq =>
    subst hown
    obtain ⟨f, rfl, rfl, hf⟩ := redeemed_of_taken hw hs hlog hproved.taken
    obtain rfl := hf.provider hproved.provider
    constructor
    · intro url form hpost
      rw [hpost] at hq
      cases hq with
      | tail ht => cases ht
    · intro _
      exact ⟨f, _, tenantId, provider, query, _, _, _, _, hcall, hp, hquery, hf, hproved, hprofile,
        hheader, hq⟩

/-! ### One redirect, one callback -/

/-- The state that an exchange stores. -/
def storedState : Event authrs → Option String
  | ⟨.sql (.oauth (.insertState state ..)), _⟩ => some state
  | _ => none

theorem storedState_eq_some {e : Event authrs} {state : String} :
    storedState e = some state ↔ ∃ tenantId provider verifier nonce expiresAt,
      e.request = .sql (.oauth (.insertState state tenantId provider verifier nonce expiresAt)) := by
  obtain ⟨q, r⟩ := e
  constructor
  · intro h
    unfold storedState at h
    split at h
    · rename_i heq
      cases h
      cases heq
      exact ⟨_, _, _, _, _, rfl⟩
    · cases h
  · rintro ⟨tenantId, provider, verifier, nonce, expiresAt, hq⟩
    obtain rfl : q = _ := hq
    rfl

/-- The random token that an exchange draws. -/
def tokenOf : Event authrs → Option String
  | ⟨.randomToken, t⟩ => some t
  | _ => none

omit [DecidableEq ι] in
theorem drawnToken_eq (m : Move authrs ι State) : drawnToken m = tokenOf m.event := rfl

/-- No state is stored twice. -/
theorem storedState_once (hw : FreshTokens w) (s : State) (call : ι → FlowCall)
    (l : List (ι ⊕ Besides)) :
    ((flowRun w s call l).log.filterMap fun m => storedState m.event).Nodup := by
  refine @nodup_used authrs ι State String _ tokenOf storedState ?_ ?_ ?_ ?_
  · intro e k hk
    obtain ⟨_, _, _, _, _, hq⟩ := storedState_eq_some.mp hk
    obtain ⟨q, r⟩ := e
    obtain rfl : q = _ := hq
    rfl
  · exact (funext fun m : Move authrs ι State => drawnToken_eq m) ▸ (flowRun_drawn hw s call l).once
  · intro newer m older state hlog hstored
    obtain ⟨_, _, verifier, nonce, _, hq⟩ := storedState_eq_some.mp hstored
    obtain ⟨T, prov, p, row, now, n, -, -, -, -, -, hown⟩ :=
      stored_by_redirect (flowRun_step hlog) hq
    refine ⟨[did (.oauth .deleteExpired) n, ⟨.clock, now⟩, ⟨.randomToken, nonce⟩,
      ⟨.randomToken, verifier⟩], ⟨.randomToken, state⟩, _, hown, rfl, ?_⟩
    simp [storedState]

/-- An issued ticket is a stored state. -/
theorem storedState_of_issues (hw : FreshTokens w) {x : Move authrs ι State} {r : OauthStateRow}
    (hlog : (flowRun w s call l).log = newer ++ x :: older) (hx : pendingStates.Issues x r) :
    storedState x.event = some r.state := by
  obtain ⟨p, hstarted⟩ := started_of_issues hw hlog hx x
  exact storedState_eq_some.mpr ⟨_, _, _, _, _, hstarted.stores⟩

omit [DecidableEq ι] in
/-- Stamps that name other stamps occur no more often than these. -/
theorem nodup_of_named {κ ν : Type} {f : Move authrs ι State → Option κ}
    {g : Move authrs ι State → Option ν} (name : κ → ν) {log : List (Move authrs ι State)}
    (h : ∀ m ∈ log, ∀ k, f m = some k → g m = some (name k)) (hg : (log.filterMap g).Nodup) :
    (log.filterMap f).Nodup := by
  induction log with
  | nil => exact List.nodup_nil
  | cons m log ih =>
    obtain ⟨hm, hrest⟩ := List.forall_mem_cons.mp h
    have hlog := ih hrest (hg.sublist ((List.sublist_cons_self m log).filterMap g))
    cases hk : f m with
    | none => rwa [List.filterMap_cons_none hk]
    | some k =>
      rw [List.filterMap_cons_some hk, List.nodup_cons]
      refine ⟨fun hmem => ?_, hlog⟩
      rw [List.filterMap_cons_some (hm k hk), List.nodup_cons] at hg
      obtain ⟨x, hx, hxk⟩ := List.mem_filterMap.mp hmem
      exact hg.1 (List.mem_filterMap.mpr ⟨x, hx, hrest x hx k hxk⟩)

/-- **No state is taken twice.** -/
theorem taken_once (hw : FreshTokens w) (hs : ∀ r, r ∉ s.db.oauthStates) (call : ι → FlowCall)
    (l : List (ι ⊕ Besides)) : (pendingStates.taken (flowRun w s call l).log).Nodup := by
  refine Tickets.run_taken_nodup (pendingStates_lawful w) hs l ?_
  refine nodup_of_named OauthStateRow.state ?_ (storedState_once hw s call l)
  intro x hx r hr
  obtain ⟨newer, older, hlog⟩ := List.append_of_mem hx
  exact storedState_of_issues hw hlog hr

/-- **A redirect starts one flow.** -/
theorem start_eq {f f' : Flow ι} {newer' older' : List (Move authrs ι State)}
    (hlog : (flowRun w s call l).log = newer ++ f.start :: older)
    (hlog' : (flowRun w s call l).log = newer' ++ f'.start :: older')
    (hf : Started call older f) (hf' : Started call older' f')
    (hwho : f.start.who = f'.start.who) : f.start = f'.start := by
  -- A redirect that stores a state has stored none before.
  have hnone : ∀ {g : Flow ι} {n o : List (Move authrs ι State)},
      (flowRun w s call l).log = n ++ g.start :: o → Started call o g →
      ∀ e ∈ own g.start.who o, storedState e = none := by
    intro g n o hg hstarted
    obtain ⟨T, prov, p, row, now, n, -, -, -, -, -, hown⟩ :=
      stored_by_redirect (flowRun_step hg) hstarted.stores
    rw [hown]
    simp [storedState]
  have hsome : ∀ {g : Flow ι} {o : List (Move authrs ι State)}, Started call o g →
      storedState g.start.event = some g.row.state :=
    fun hstarted => storedState_eq_some.mpr ⟨_, _, _, _, _, hstarted.stores⟩
  rcases append_cons_cases (hlog.symm.trans hlog') with ⟨c, -, hc⟩ | ⟨-, heq, -⟩ | ⟨c, -, hc⟩
  · have hmem : f'.start.event ∈ own f.start.who older :=
      mem_own.mpr ⟨f'.start, by simp [hc], hwho.symm, rfl⟩
    have hstored := hnone hlog hf _ hmem
    rw [hsome hf'] at hstored
    cases hstored
  · exact heq
  · have hmem : f.start.event ∈ own f'.start.who older' :=
      mem_own.mpr ⟨f.start, by simp [hc], hwho, rfl⟩
    have hstored := hnone hlog' hf' _ hmem
    rw [hsome hf] at hstored
    cases hstored

/-- **A redirect serves one callback.** -/
theorem who_eq_of_start (hw : FreshTokens w) (hs : ∀ r, r ∉ s.db.oauthStates)
    {newer' older' : List (Move authrs ι State)} {m' : Move authrs ι State} {f f' : Flow ι}
    (hlog : (flowRun w s call l).log = newer ++ m :: older)
    (hlog' : (flowRun w s call l).log = newer' ++ m' :: older')
    (hf : FlowRedeemed call older m.who f) (hf' : FlowRedeemed call older' m'.who f')
    (hwho : f.start.who = f'.start.who) : m.who = m'.who := by
  obtain ⟨after, between, before, rfl, hstarted⟩ := hf.order
  obtain ⟨after', between', before', rfl, hstarted'⟩ := hf'.order
  have hstart : f.start = f'.start := by
    have hlogs : (flowRun w s call l).log =
        (newer ++ m :: (after ++ f.take :: between)) ++ f.start :: before := by simp [hlog]
    have hlogs' : (flowRun w s call l).log =
        (newer' ++ m' :: (after' ++ f'.take :: between')) ++ f'.start :: before' := by simp [hlog']
    exact start_eq hlogs hlogs' hstarted hstarted' hwho
  have hrow : f.row = f'.row := by
    have hstores := hstarted.stores
    rw [hstart, hstarted'.stores] at hstores
    obtain ⟨_, ⟨h₁, h₂, h₃, h₄, h₅, h₆⟩, _, _⟩ := f
    obtain ⟨_, ⟨h₁', h₂', h₃', h₄', h₅', h₆'⟩, _, _⟩ := f'
    cases hstores
    rfl
  -- The row is taken once, so both calls are the one that took it.
  have htakes : ∀ {who : ι} {o : List (Move authrs ι State)} {g : Flow ι},
      FlowRedeemed call o who g → pendingStates.Takes g.take g.row := by
    intro who o g hg
    unfold Tickets.Takes
    rw [hg.taken]
    exact takes_of_stored hg.stored hg.inTime
  have hmem : f.take ∈ (flowRun w s call l).log := by simp [hlog]
  have hmem' : f'.take ∈ (flowRun w s call l).log := by simp [hlog']
  have htake := eq_of_stamp (taken_once hw hs call l) hmem hmem' (htakes hf)
    (hrow ▸ htakes hf' : pendingStates.Takes f'.take f.row)
  rw [← hf.taker, htake, hf'.taker]

/-- What a decoded token says is in the token. -/
theorem tokenClaims_of_decode {idToken : String} {jwk : Jwk} {v : Validation} {now : Time}
    {claims : IdTokenClaims} (h : OauthService.decodeIdToken w idToken jwk v now = .ok claims) :
    w.tokenClaims idToken = .ok claims := by
  have hall : (do
      let key ← w.decodingKey jwk
      w.validateToken idToken key v now
      w.tokenClaims idToken : Except String IdTokenClaims) = .ok claims := by
    unfold OauthService.decodeIdToken at h
    revert h
    generalize (do
      let key ← w.decodingKey jwk
      w.validateToken idToken key v now
      w.tokenClaims idToken : Except String IdTokenClaims) = o
    intro h
    cases o with
    | ok c =>
      cases h
      rfl
    | error e => cases h
  obtain ⟨key, -, hrest⟩ := bind_eq_ok.mp hall
  obtain ⟨-, -, hclaims⟩ := bind_eq_ok.mp hrest
  exact hclaims

/-- What a redirect has drawn is drawn in the run. -/
theorem FlowRedeemed.nonce_drawn {who : ι} {f : Flow ι}
    (hlog : (flowRun w s call l).log = newer ++ m :: older)
    (hf : FlowRedeemed call older who f) :
    (⟨.randomToken, f.row.nonce⟩ : Event authrs) ∈ own f.start.who (flowRun w s call l).log := by
  obtain ⟨after, between, before, rfl, hstarted⟩ := hf.order
  have hnonce := hstarted.drawn f.row.nonce (by simp)
  obtain ⟨x, hx, hwho, hevent⟩ := mem_own.mp hnonce
  exact mem_own.mpr ⟨x, by simp [hlog, hx], hwho, hevent⟩

/-- **A redirect serves one callback, and so does an ID token**: sign-ins for the same redirect, or
with the same token, are by the same callback. -/
def FlowsOnce (w : World) (call : ι → FlowCall) (log : List (Move authrs ι State)) : Prop :=
  ∀ newer newer' older older' m m' f f' idToken idToken',
    log = newer ++ m :: older → log = newer' ++ m' :: older' →
    SignsIn w call older m f idToken → SignsIn w call older' m' f' idToken' →
    f.start.who = f'.start.who ∨ idToken = idToken' → m.who = m'.who

/-- **In every run a redirect serves one callback, and so does an ID token.** -/
theorem run_flowsOnce (w : World) (hw : FreshTokens w) (s : State)
    (hs : ∀ r, r ∉ s.db.oauthStates) (call : ι → FlowCall) (l : List (ι ⊕ Besides)) :
    FlowsOnce w call (flowRun w s call l).log := by
  intro newer newer' older older' m m' f f' idToken idToken' hlog hlog' hm hm' hsame
  obtain ⟨_, _, _, _, _, claims, _, -, -, -, hf, hproved, -⟩ := hm
  obtain ⟨_, _, _, _, _, claims', _, -, -, -, hf', hproved', -⟩ := hm'
  refine who_eq_of_start hw hs hlog hlog' hf hf' ?_
  rcases hsame with hwho | rfl
  · exact hwho
  · -- One token has one nonce, and a nonce is drawn by one redirect.
    obtain ⟨_, _, _, -, -, -, hdecode⟩ := hproved.verified
    obtain ⟨_, _, _, -, -, -, hdecode'⟩ := hproved'.verified
    have hclaims := tokenClaims_of_decode hdecode
    rw [tokenClaims_of_decode hdecode'] at hclaims
    obtain rfl : claims' = claims := Except.ok.inj hclaims
    have hnonce : f.row.nonce = f'.row.nonce :=
      Option.some.inj (hproved.nonce.symm.trans hproved'.nonce)
    have hdrawn := hf.nonce_drawn hlog
    rw [hnonce] at hdrawn
    exact (flowRun_drawn hw s call l).unique hdrawn (hf'.nonce_drawn hlog')

end Runs

/-! ### A flow from its redirect to its session -/

/-- An identity provider that vouches for one account, and the texts on the way. -/
def World.federated : World :=
  { World.offline with
    parseJson := fun text =>
      if text = "\x7b\"id_token\":\"jwt\"\x7d" then .ok (.object [("id_token", .string "jwt")])
      else .ok (.object [("clientId", .string "authrs"), ("clientSecret", .string "s3cret"),
        ("redirectUrl", .string "https://app.example/callback")])
    network := fun _ request =>
      match request with
      | .postForm .. => .ok ⟨200, "\x7b\"id_token\":\"jwt\"\x7d"⟩
      | .get _ => .ok ⟨200, "keys"⟩
    parseJwks := fun _ => .ok [⟨some "k1", "rsa"⟩]
    decodeHeader := fun _ => .ok ⟨"RS256", some "k1"⟩
    validateToken := fun _ _ _ _ => .ok ()
    tokenClaims := fun _ => .ok ⟨"https://accounts.google.com", "108", some "xxx",
      some "ann@acme.example", some (.bool true), some "Ann", none, none, none, none, none⟩ }

theorem World.federated_freshTokens : FreshTokens .federated where
  injective := World.offline_freshTokens.injective
  noBlank := World.offline_freshTokens.noBlank

/-- A tenant that has configured the provider. -/
def federatedTenant : State :=
  .ofDb { Db.empty with
    tenants := .single ⟨"acme", "Acme", "active", 0⟩
    kvStore := .single ⟨"acme", "oauth", "google", "\x7b\"clientId\":\"authrs\"," ++
      "\"clientSecret\":\"s3cret\",\"redirectUrl\":\"https://app.example/callback\"\x7d", false,
      0⟩ } 0

/-- A redirect, and two callbacks with its state. -/
def oneFlow : ℕ → FlowCall
  | 0 => .redirect acme "google"
  | _ => .callback none "google" ⟨some "code", some "x", none, none⟩

/-- The redirect, and then the callbacks in turns. -/
def oneFlowSchedule : List (ℕ ⊕ Besides) :=
  List.replicate 12 (Sum.inl 0) ++ (List.replicate 60 [Sum.inl 1, Sum.inl 2]).flatten

/-- The first callback signs somebody in. -/
theorem run_flowBound_oneFlow :
    EachMove (FlowBound .federated oneFlow)
        (flowRun .federated federatedTenant oneFlow oneFlowSchedule).log ∧
      ((flowRun .federated federatedTenant oneFlow oneFlowSchedule).log.any fun m =>
        m.who = 1 && goesBeyond m.event.request) = true :=
  ⟨run_flowBound .federated World.federated_freshTokens federatedTenant (fun _ => nofun) oneFlow
    oneFlowSchedule, by decide +kernel⟩

/-- The callbacks get one session between them. -/
theorem run_flowsOnce_oneFlow :
    FlowsOnce .federated oneFlow
        (flowRun .federated federatedTenant oneFlow oneFlowSchedule).log ∧
      (flowRun .federated federatedTenant oneFlow oneFlowSchedule).state.db.sessions.rows.length = 1 :=
  ⟨run_flowsOnce .federated World.federated_freshTokens federatedTenant (fun _ => nofun) oneFlow
    oneFlowSchedule, by decide +kernel⟩

end Authrs
