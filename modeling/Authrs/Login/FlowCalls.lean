import Authrs.Login.Footprint
import Authrs.Routes.Oauth

/-!
# Calls of the OAuth routes

A redirect stores a state that it has drawn, once. A callback takes the state that was presented to
it, before anything else; it sends the code to the token endpoint with the verifier of the row it
has taken, and it signs somebody in only after it has checked the ID token and its nonce against
that row, for the tenant of the row.

## Main definitions

* `FlowCall`, `FlowCall.run`: the calls
* `Consumed`, `Proved`: what a callback has shown of the flow it ends
* `RedirectStep`, `CallbackStep`: what a call has shown before each request

## Main results

* `oauthRedirect_keeps`, `oauthCallback_keeps`: the routes go through these steps
-/

namespace Authrs

open Interaction

/-- A call of the OAuth routes. -/
inductive FlowCall
  | redirect (tenantId : TenantId) (provider : String)
  | callback (tenantId : Option TenantId) (provider : String) (query : OauthCallbackQuery)

/-- **The call**, with its result dropped. -/
def FlowCall.run (w : World) : FlowCall → Service Unit
  | redirect tenantId provider => do
    let _ ← oauthRedirect w tenantId provider
    pure ()
  | callback tenantId provider query => do
    let _ ← oauthCallback w tenantId provider query
    pure ()

open Program

/-! ### What a callback shows -/

/-- The call has read a tenant's configuration of a provider. -/
def Configured (w : World) (tenantId : String) (p : Provider) (cfg : OauthConfig)
    (h : List (Event authrs)) : Prop :=
  ∃ row v, did (.kv (.get tenantId "oauth" p.asStr)) row ∈ h ∧ decodeKv w row = .ok (some v) ∧
    OauthConfig.fromValue v = some cfg

/-- The call has found a signing key under an URL, in the cache or by fetching it. -/
def Published (w : World) (url kid : String) (jwk : Jwk) (h : List (Event authrs)) : Prop :=
  (∃ cached, (⟨.jwksCacheGet url, some cached⟩ : Event authrs) ∈ h ∧
    OauthService.findKey cached.keys kid = some jwk) ∨
  ∃ resp keys, (⟨.http (.get url), .ok resp⟩ : Event authrs) ∈ h ∧ ¬resp.Failed ∧
    w.parseJwks resp.body = .ok keys ∧ OauthService.findKey keys kid = some jwk

/-- **A state has been consumed**: the call has taken its row, for the right provider, and has read
the configuration of the row's tenant. -/
structure Consumed (w : World) (p : Provider) (state : String) (pending : OauthState)
    (cfg : OauthConfig) (h : List (Event authrs)) : Prop where
  taken : did (.oauth (.takeState state)) (some pending) ∈ h
  provider : pending.provider = p.asStr
  configured : Configured w pending.tenantId p cfg h

/-- **The ID token has been proved**: the token endpoint gave it for the code and the verifier of the
row, a published key verifies it for the configured client, and it carries the nonce of the row. -/
structure Proved (w : World) (p : Provider) (code state : String) (pending : OauthState)
    (cfg : OauthConfig) (idToken : String) (claims : IdTokenClaims) (h : List (Event authrs)) : Prop
    extends Consumed w p state pending cfg h where
  exchanged : ∃ resp, (⟨.http (.postForm (w.endpoints.tokenUrl p cfg)
      (OauthService.tokenForm cfg code pending.pkceVerifier)), .ok resp⟩ : Event authrs) ∈ h ∧
    OauthService.idTokenOf w resp = .ok idToken
  verified : ∃ kid jwk now, OauthService.keyIdOf w idToken = .ok kid ∧
    Published w (w.endpoints.jwksUrl p cfg) kid jwk h ∧ now ∈ clocks h ∧
    OauthService.decodeIdToken w idToken jwk (OauthService.validation p cfg) now = .ok claims
  issuer : OauthService.checkIssuer p cfg claims = .ok ()
  nonce : claims.nonce = some pending.nonce

section Mono

variable {w : World} {p : Provider} {code state tenantId url kid idToken : String}
  {pending : OauthState} {cfg : OauthConfig} {jwk : Jwk} {claims : IdTokenClaims}
  {h h' : List (Event authrs)}

theorem Configured.mono (hc : Configured w tenantId p cfg h) (hsub : h ⊆ h') :
    Configured w tenantId p cfg h' := by
  obtain ⟨row, v, hrow, hv⟩ := hc
  exact ⟨row, v, hsub hrow, hv⟩

theorem Published.mono (hp : Published w url kid jwk h) (hsub : h ⊆ h') :
    Published w url kid jwk h' := by
  rcases hp with ⟨cached, hmem, hkey⟩ | ⟨resp, keys, hmem, hkey⟩
  · exact .inl ⟨cached, hsub hmem, hkey⟩
  · exact .inr ⟨resp, keys, hsub hmem, hkey⟩

theorem Consumed.mono (hc : Consumed w p state pending cfg h) (hsub : h ⊆ h') :
    Consumed w p state pending cfg h' :=
  ⟨hsub hc.taken, hc.provider, hc.configured.mono hsub⟩

theorem Proved.mono (hp : Proved w p code state pending cfg idToken claims h) (hsub : h ⊆ h') :
    Proved w p code state pending cfg idToken claims h' := by
  obtain ⟨resp, hresp, htoken⟩ := hp.exchanged
  obtain ⟨kid, jwk, now, hkid, hjwk, hnow, hdecode⟩ := hp.verified
  exact ⟨hp.toConsumed.mono hsub, ⟨resp, hsub hresp, htoken⟩,
    ⟨kid, jwk, now, hkid, hjwk.mono hsub, hsub hnow, hdecode⟩, hp.issuer, hp.nonce⟩

end Mono

/-- A request that looks something up on the way: the configuration, the clock, a signing key. -/
def looks : Request → Bool
  | .sql (.kv _) => true
  | .clock => true
  | .http (.get _) => true
  | .jwksCacheGet _ => true
  | .jwksCacheInsert .. => true
  | _ => false

/-- **What a redirect has shown before a request**: it stores the state it has drawn, with the
verifier and the nonce, for its tenant. -/
inductive RedirectStep (w : World) (tenantId : TenantId) (provider : String) :
    List (Event authrs) → Event authrs → Prop
  | look {h : List (Event authrs)} {e : Event authrs} : looks e.request = true →
    RedirectStep w tenantId provider h e
  | draw {h : List (Event authrs)} {e : Event authrs} : e.request = .randomToken →
    RedirectStep w tenantId provider h e
  | purge {h : List (Event authrs)} {e : Event authrs} :
    e.request = .sql (.oauth .deleteExpired) → RedirectStep w tenantId provider h e
  | store {p : Provider} {row : Option KvStoreRow} {state verifier nonce : String} {now : Time}
    {n : Nat} {e : Event authrs} : Provider.parse provider = .ok p →
    e.request = .sql (.oauth (.insertState state tenantId.val p.asStr verifier nonce
      (now + minutes STATE_TTL_MINS))) →
    RedirectStep w tenantId provider [did (.oauth .deleteExpired) n, ⟨.clock, now⟩,
      ⟨.randomToken, nonce⟩, ⟨.randomToken, verifier⟩, ⟨.randomToken, state⟩,
      did (.kv (.get tenantId.val "oauth" p.asStr)) row] e

/-- **What a callback has shown before a request.** -/
inductive CallbackStep (w : World) (tenantId : Option TenantId) (provider : String)
    (query : OauthCallbackQuery) : List (Event authrs) → Event authrs → Prop
  | take {code state : String} {e : Event authrs} : callbackParams query = .ok (code, state) →
    e.request = .sql (.oauth (.takeState state)) → CallbackStep w tenantId provider query [] e
  | look {h : List (Event authrs)} {e : Event authrs} : looks e.request = true →
    CallbackStep w tenantId provider query h e
  | exchange {p : Provider} {code state : String} {pending : OauthState} {cfg : OauthConfig}
    {h : List (Event authrs)} {e : Event authrs} : Provider.parse provider = .ok p →
    callbackParams query = .ok (code, state) → Consumed w p state pending cfg h →
    e.request = .http (.postForm (w.endpoints.tokenUrl p cfg)
      (OauthService.tokenForm cfg code pending.pkceVerifier)) →
    CallbackStep w tenantId provider query h e
  | signIn {p : Provider} {code state : String} {pending : OauthState} {cfg : OauthConfig}
    {idToken : String} {claims : IdTokenClaims} {profile : OauthProfile} {h : List (Event authrs)}
    {e : Event authrs} : Provider.parse provider = .ok p →
    callbackParams query = .ok (code, state) →
    Proved w p code state pending cfg idToken claims h →
    OauthService.profileFromClaims w p claims = .ok profile →
    (∀ T ∈ tenantId, T.val = pending.tenantId) →
    SignInRequest pending.tenantId p.asStr profile e.request →
    CallbackStep w tenantId provider query h e

/-- The steps of a call. -/
def FlowCall.Step (w : World) : FlowCall → List (Event authrs) → Event authrs → Prop
  | redirect tenantId provider => RedirectStep w tenantId provider
  | callback tenantId provider query => CallbackStep w tenantId provider query

/-- The contract of a call. -/
abbrev FlowCall.contract (w : World) (c : FlowCall) : Contract authrs := .ofGuarantee (c.Step w)

/-! ### The steps of the routes -/

section Steps

variable {w : World} {C : Contract authrs} {h : List (Event authrs)}

theorem keeps_ofResult_ok {α : Type} (r : Except AppError α) :
    (Service.ofResult r).Keeps C (OnOk fun a h' => r = .ok a ∧ h' = h) h := by
  cases r with
  | ok a => exact ⟨rfl, rfl⟩
  | error e => trivial

theorem keeps_request_ok {q : Request} (hq : ∀ e : Event authrs, e.request = q → C.guarantee h e) :
    (Program.request (I := authrs) q : Service _).Keeps C (OnOk fun r h' => h' = ⟨q, r⟩ :: h) h :=
  fun _ _ => ⟨hq _ rfl, rfl⟩

namespace OauthService

variable (hlook : ∀ h e, looks e.request = true → C.guarantee h e)

include hlook

/-- The configuration of a provider, read by the call. -/
theorem loadConfig_shown (tenantId : String) (p : Provider) :
    (loadConfig w tenantId p).Keeps C (OnOk fun cfg h' => ∃ row,
      h' = did (.kv (.get tenantId "oauth" p.asStr)) row :: h ∧ Configured w tenantId p cfg h') h := by
  have hget : (TenantConfigLoader.getOauth w tenantId p.asStr).Keeps C (OnOk fun cfg h' => ∃ row v,
      h' = did (.kv (.get tenantId "oauth" p.asStr)) row :: h ∧ decodeKv w row = .ok v ∧
        cfg = v.bind OauthConfig.fromValue) h := by
    refine Keeps.bind_ok (N := fun v h' => ∃ row,
      h' = did (.kv (.get tenantId "oauth" p.asStr)) row :: h ∧ decodeKv w row = .ok v) ?_ ?_
    · refine (keeps_query_ok fun e he => hlook _ _ (he ▸ rfl)).bind_ok ?_
      rintro row h₁ - rfl
      refine (keeps_ofResult_ok _).weaken_ok ?_
      rintro v h₂ - ⟨hv, rfl⟩
      exact ⟨row, rfl, hv⟩
    · rintro v h₁ - ⟨row, rfl, hv⟩
      exact ⟨row, v, rfl, hv, rfl⟩
  refine hget.bind_ok ?_
  rintro found h₁ - ⟨row, v, rfl, hv, rfl⟩
  refine (keeps_okOr_ok _ _).weaken_ok ?_
  rintro cfg h₂ - ⟨hcfg, rfl⟩
  obtain ⟨j, rfl, hj⟩ := Option.bind_eq_some_iff.mp hcfg
  exact ⟨row, rfl, row, j, List.mem_cons_self, hv, hj⟩

/-- A signing key is found in the cache, or fetched. -/
theorem findJwk_shown (url kid : String) :
    (findJwk w url kid).Keeps C (OnOk fun jwk h' => h ⊆ h' ∧ Published w url kid jwk h') h := by
  refine (keeps_request_ok fun e he => hlook _ _ (he ▸ rfl)).bind_ok ?_
  rintro cached h₁ - rfl
  refine (keeps_utcNow_ok fun e he => hlook _ _ (he ▸ rfl)).bind_ok ?_
  rintro now h₂ - rfl
  refine (keeps_ofResult_ok _).bind_ok ?_
  rintro hit h₃ - ⟨hhit, rfl⟩
  cases hit with
  | some jwk =>
    refine ⟨List.subset_cons_of_subset _ (List.subset_cons_self _ _), .inl ?_⟩
    cases cached with
    | none => cases hhit
    | some entry =>
      refine ⟨entry, List.mem_cons_of_mem _ List.mem_cons_self, ?_⟩
      simp only [cachedKey] at hhit
      split at hhit
      · rename_i jwk' hfind
        obtain rfl : jwk' = jwk := Option.some.inj (Except.ok.inj hhit)
        split at hfind
        · exact hfind
        · cases hfind
      · split at hhit <;> cases hhit
  | none =>
    -- Nothing in the cache: the keys are fetched.
    have hfetch : (fetchKeys w url).Keeps C (OnOk fun keys h' => ∃ resp,
        (⟨.http (.get url), .ok resp⟩ : Event authrs) ∈ h' ∧ ¬resp.Failed ∧
          w.parseJwks resp.body = .ok keys)
        (⟨.clock, now⟩ :: ⟨.jwksCacheGet url, cached⟩ :: h) := by
      have hsend : (send (.get url) "Failed to fetch provider signing keys: ").Keeps C
          (OnOk fun resp h' => h' = ⟨.http (.get url), .ok resp⟩ ::
            ⟨.clock, now⟩ :: ⟨.jwksCacheGet url, cached⟩ :: h)
          (⟨.clock, now⟩ :: ⟨.jwksCacheGet url, cached⟩ :: h) := by
        refine (keeps_request_ok fun e he => hlook _ _ (he ▸ rfl)).bind_ok ?_
        rintro (e | resp) h₄ - rfl
        · trivial
        · rfl
      refine hsend.bind_ok ?_
      rintro resp h₄ - rfl
      refine (keeps_ensure_ok _ _).bind_ok ?_
      rintro - h₅ - ⟨hstatus, rfl⟩
      refine (keeps_ofResult_ok _).bind_ok ?_
      rintro keys h₆ - ⟨hkeys, rfl⟩
      refine (keeps_request_ok fun e he => hlook _ _ (he ▸ rfl)).bind_ok ?_
      rintro - h₇ hsub -
      refine ⟨resp, hsub List.mem_cons_self, hstatus, ?_⟩
      cases hparse : w.parseJwks resp.body with
      | ok keys' =>
        rw [hparse] at hkeys
        cases hkeys
        rfl
      | error e =>
        rw [hparse] at hkeys
        cases hkeys
    refine hfetch.bind_ok ?_
    rintro keys h₄ hsub ⟨resp, hresp, hstatus, hkeys⟩
    refine (keeps_okOr_ok _ _).weaken_ok ?_
    rintro jwk h₅ - ⟨hjwk, rfl⟩
    have hpast : h ⊆ ⟨.clock, now⟩ :: ⟨.jwksCacheGet url, cached⟩ :: h :=
      List.subset_cons_of_subset _ (List.subset_cons_self _ _)
    exact ⟨List.Subset.trans hpast hsub, .inr ⟨resp, keys, hresp, hstatus, hkeys, hjwk⟩⟩

/-- A verified ID token has a published key, and passes every check. -/
theorem verifyIdToken_shown (p : Provider) (cfg : OauthConfig) (idToken : String) :
    (verifyIdToken w p cfg idToken).Keeps C (OnOk fun claims h' => h ⊆ h' ∧
      (∃ kid jwk now, keyIdOf w idToken = .ok kid ∧
        Published w (w.endpoints.jwksUrl p cfg) kid jwk h' ∧ now ∈ clocks h' ∧
        decodeIdToken w idToken jwk (validation p cfg) now = .ok claims) ∧
      checkIssuer p cfg claims = .ok ()) h := by
  refine (keeps_ofResult_ok _).bind_ok ?_
  rintro kid h₁ - ⟨hkid, rfl⟩
  refine (findJwk_shown hlook _ kid).bind_ok ?_
  rintro jwk h₂ - ⟨hsub, hjwk⟩
  refine (keeps_utcNow_ok fun e he => hlook _ _ (he ▸ rfl)).bind_ok ?_
  rintro now h₃ - rfl
  refine (keeps_ofResult_ok _).bind_ok ?_
  rintro claims h₄ - ⟨hclaims, rfl⟩
  refine (keeps_ofResult_ok _).bind_ok ?_
  rintro ⟨⟩ h₅ - ⟨hissuer, rfl⟩
  exact ⟨List.subset_cons_of_subset _ hsub, ⟨kid, jwk, now, hkid,
    hjwk.mono (List.subset_cons_self _ _), List.mem_cons_self, hclaims⟩, hissuer⟩

end OauthService

/-- **A redirect goes through its steps.** -/
theorem oauthRedirect_keeps (w : World) (tenantId : TenantId) (provider : String) :
    (oauthRedirect w tenantId provider).Keeps ((FlowCall.redirect tenantId provider).contract w)
      (OnOk fun _ _ => True) [] := by
  have hlook : ∀ h e, looks e.request = true →
      ((FlowCall.redirect tenantId provider).contract w).guarantee h e := fun _ _ => .look
  refine (keeps_ofResult_ok _).bind_ok ?_
  rintro p h₁ - ⟨hp, rfl⟩
  refine (OauthService.loadConfig_shown hlook tenantId.val p).bind_ok ?_
  rintro cfg h₂ - ⟨row, rfl, -⟩
  refine (keeps_request_ok fun e he => RedirectStep.draw he).bind_ok ?_
  rintro state h₃ - rfl
  refine (keeps_request_ok fun e he => RedirectStep.draw he).bind_ok ?_
  rintro verifier h₄ - rfl
  refine (keeps_request_ok fun e he => RedirectStep.draw he).bind_ok ?_
  rintro nonce h₅ - rfl
  refine (keeps_utcNow_ok fun e he => RedirectStep.look (he ▸ rfl)).bind_ok ?_
  rintro now h₆ - rfl
  refine Keeps.bind_ok (N := fun _ _ => True) ?_ ?_
  · refine (keeps_execute_ok fun e he => RedirectStep.purge he).bind_ok ?_
    rintro - h₇ - ⟨n, rfl⟩
    exact (keeps_execute_ok fun e he => RedirectStep.store hp he).weaken_ok fun _ _ _ _ => trivial
  · rintro - h₇ - -
    exact (keeps_ofResult_ok _).bind_ok fun _ _ _ _ => trivial

section Callback

variable {provider : String} {query : OauthCallbackQuery}
  (hlook : ∀ h e, looks e.request = true → C.guarantee h e)
  (htake : ∀ code state e, callbackParams query = .ok (code, state) →
    e.request = .sql (.oauth (.takeState state)) → C.guarantee [] e)
  (hexchange : ∀ p code state pending cfg h e, Provider.parse provider = .ok p →
    callbackParams query = .ok (code, state) → Consumed w p state pending cfg h →
    e.request = .http (.postForm (w.endpoints.tokenUrl p cfg)
      (OauthService.tokenForm cfg code pending.pkceVerifier)) → C.guarantee h e)

include hlook htake hexchange

/-- A callback comes back with a proved flow. -/
theorem complete_shown {p : Provider} {code state : String}
    (hp : Provider.parse provider = .ok p) (hquery : callbackParams query = .ok (code, state)) :
    (OauthService.complete w p code state).Keeps C
      (OnOk fun callback h' => ∃ pending cfg idToken claims,
        Proved w p code state pending cfg idToken claims h' ∧
        OauthService.profileFromClaims w p claims = .ok callback.profile ∧
        callback.tenantId = pending.tenantId) [] := by
  refine (keeps_query_ok fun e he => htake code state e hquery he).bind_ok ?_
  rintro found h₁ - rfl
  refine (keeps_okOr_ok _ _).bind_ok ?_
  rintro pending h₂ - ⟨rfl, rfl⟩
  refine (keeps_ensure_ok _ _).bind_ok ?_
  rintro - h₃ - ⟨hprovider, rfl⟩
  refine (OauthService.loadConfig_shown hlook pending.tenantId p).bind_ok ?_
  rintro cfg h₄ hsub₄ ⟨row, hh₄, hcfg⟩
  have hconsumed : Consumed w p state pending cfg h₄ :=
    ⟨hsub₄ List.mem_cons_self, hprovider, hcfg⟩
  have hcode : (OauthService.exchangeCode w p cfg code pending.pkceVerifier).Keeps C
      (OnOk fun idToken h' => h₄ ⊆ h' ∧
        ∃ resp, (⟨.http (.postForm (w.endpoints.tokenUrl p cfg)
          (OauthService.tokenForm cfg code pending.pkceVerifier)), .ok resp⟩ : Event authrs) ∈ h' ∧
          OauthService.idTokenOf w resp = .ok idToken) h₄ := by
    refine Keeps.bind_ok (N := fun resp h' => h' = ⟨.http (.postForm (w.endpoints.tokenUrl p cfg)
      (OauthService.tokenForm cfg code pending.pkceVerifier)), .ok resp⟩ :: h₄) ?_ ?_
    · refine (keeps_request_ok fun e he => hexchange _ _ _ _ _ _ e hp hquery hconsumed he).bind_ok ?_
      rintro (e | resp) h₅ - rfl
      · trivial
      · rfl
    · rintro resp h₅ - rfl
      refine (keeps_ofResult_ok _).weaken_ok ?_
      rintro idToken h₆ - ⟨htoken, rfl⟩
      exact ⟨List.subset_cons_self _ _, resp, List.mem_cons_self, htoken⟩
  refine hcode.bind_ok ?_
  rintro idToken h₅ - ⟨hsub₅, resp, hresp, htoken⟩
  refine (OauthService.verifyIdToken_shown hlook p cfg idToken).bind_ok ?_
  rintro claims h₆ - ⟨hsub₆, hverified, hissuer⟩
  refine (keeps_ensure_ok _ _).bind_ok ?_
  rintro - h₇ - ⟨hnonce, rfl⟩
  refine (keeps_ofResult_ok _).bind_ok ?_
  rintro profile h₈ - ⟨hprofile, rfl⟩
  refine ⟨pending, cfg, idToken, claims, ?_, hprofile, rfl⟩
  exact ⟨hconsumed.mono (List.Subset.trans hsub₅ hsub₆), ⟨resp, hsub₆ hresp, htoken⟩, hverified,
    hissuer, hnonce⟩

/-- **A callback signs somebody in after a proved flow**, for the tenant of the flow. -/
theorem oauthCallback_shown (tenantId : Option TenantId)
    (hsignIn : ∀ p code state pending cfg idToken claims profile allowSignup h,
      Provider.parse provider = .ok p → callbackParams query = .ok (code, state) →
      Proved w p code state pending cfg idToken claims h →
      OauthService.profileFromClaims w p claims = .ok profile →
      (∀ T ∈ tenantId, T.val = pending.tenantId) →
      (AuthService.loginOauth w pending.tenantId p.asStr profile allowSignup none none).Keeps C
        (OnOk fun _ _ => True) h) :
    (oauthCallback w tenantId provider query).Keeps C (OnOk fun _ _ => True) [] := by
  refine (keeps_ofResult_ok _).bind_ok ?_
  rintro p h₁ - ⟨hp, rfl⟩
  refine (keeps_ofResult_ok _).bind_ok ?_
  rintro ⟨code, state⟩ h₂ - ⟨hquery, rfl⟩
  refine (complete_shown hlook htake hexchange hp hquery).bind_ok ?_
  rintro callback h₃ - ⟨pending, cfg, idToken, claims, hproved, hprofile, htenant⟩
  have hheader : (checkHeaderTenant tenantId callback.tenantId).Keeps C
      (OnOk fun _ h' => (∀ T ∈ tenantId, T.val = pending.tenantId) ∧ h' = h₃) h₃ := by
    cases tenantId with
    | none => exact ⟨by simp, rfl⟩
    | some T =>
      refine (keeps_ensure_ok _ _).weaken_ok ?_
      rintro - h₄ - ⟨hT, rfl⟩
      refine ⟨?_, rfl⟩
      rintro _ ⟨⟩
      exact hT.trans htenant
  refine hheader.bind_ok ?_
  rintro - h₄ - ⟨hT, rfl⟩
  rw [htenant]
  exact hsignIn p code state pending cfg idToken claims _ _ _ hp hquery hproved hprofile hT

end Callback

/-- **A callback goes through its steps.** -/
theorem oauthCallback_keeps (w : World) (tenantId : Option TenantId) (provider : String)
    (query : OauthCallbackQuery) :
    (oauthCallback w tenantId provider query).Keeps
      ((FlowCall.callback tenantId provider query).contract w) (OnOk fun _ _ => True) [] := by
  refine oauthCallback_shown (fun _ _ => CallbackStep.look)
    (fun _ _ _ hquery he => CallbackStep.take hquery he)
    (fun _ _ _ _ _ _ _ hp hquery hconsumed he => CallbackStep.exchange hp hquery hconsumed he)
    tenantId ?_
  intro p code state pending cfg idToken claims profile allowSignup h hp hquery hproved hprofile hT
  have hsignIn := AuthService.loginOauth_asks w pending.tenantId p.asStr profile allowSignup none none
  refine (hsignIn.keeps_inv (M := fun h' => Proved w p code state pending cfg idToken claims h') ?_
    hproved).onOk.weaken_ok fun _ _ _ _ => trivial
  rintro h' e hproved' hq
  exact ⟨CallbackStep.signIn hp hquery hproved' hprofile hT hq, hproved'.mono (List.subset_cons_self _ _)⟩

/-- **Every call keeps its contract.** -/
theorem FlowCall.run_keeps (w : World) (c : FlowCall) :
    (c.run w).Keeps (c.contract w) (fun _ _ => True) [] := by
  have hok : (c.run w).Keeps (c.contract w) (OnOk fun _ _ => True) [] := by
    cases c with
    | redirect tenantId provider =>
      exact (oauthRedirect_keeps w tenantId provider).bind_ok fun _ _ _ _ => trivial
    | callback tenantId provider query =>
      exact (oauthCallback_keeps w tenantId provider query).bind_ok fun _ _ _ _ => trivial
  exact hok.weaken fun _ _ _ => trivial

end Steps

end Authrs
