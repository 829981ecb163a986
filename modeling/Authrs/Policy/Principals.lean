import Authrs.Policy.Conditions
import Authrs.Policy.Engine
import Authrs.Services.Permissions

/-!
# The principals of a saved document

What becomes of the principals of a document on the way into its policies. A user who is named by a
handle is never found, and a user who is named by the text of an id is compared with the canonical
text of the ids of requests: another text of the same id matches nobody.

## Main definitions

* `FindsUsers`: users are found by their handles, and a resolved document is settled
* `PolicyTuple.MatchesRest`, `AppliesTo`: a policy applies to the requests of one user

## Main results

* `users_found_iff`: when users are found
* `user_text_denotes_iff`: when the text of an id denotes the user
-/

namespace Authrs

open Cedar (Crate PolicySet EntityUid Entities)
open PermissionsService

/-! ### Handles -/

/-- A principal of a statement of the document. -/
def PermissionDocument.HasPrincipal (doc : PermissionDocument) (p : String) : Prop :=
  ∃ s ∈ doc.statements, p ∈ s.principals

/-- A user is named by a handle: what follows the prefix is the text of no id. -/
def ByHandle (p x : String) : Prop := p = "user:" ++ x ∧ Uuid.parseStr x = none

/-- The handle is the username of a membership of the tenant, or the email of its identity. -/
def Db.Answers (db : Db) (tenantId x : String) (u : MembershipRow) : Prop :=
  u ∈ db.users ∧ u.tenantId = tenantId ∧
    (u.username = some x ∨ ∃ i ∈ db.identities, i.id = u.identityId ∧ i.email = some x)

/-- What a principal is to be replaced by. A handle is replaced by every membership that answers to
it, so there is one at most. -/
structure Replaces (db : Db) (tenantId p p' : String) : Prop where
  handle : ∀ x, ByHandle p x → ∀ u, db.Answers tenantId x u → p' = "user:" ++ u.id.hyphenated
  role : ∀ role, RolePrincipal db tenantId p role → p' = "role:" ++ role.uid
  other : p = "*" ∨ UserPrincipal p → p' = p

/-- Every handle of the document is answered. -/
def Db.AnswersAll (db : Db) (tenantId : String) (doc : PermissionDocument) : Prop :=
  ∀ p x, doc.HasPrincipal p → ByHandle p x → ∃ u, db.Answers tenantId x u

/-- **The resolution finds the named users**: it succeeds when every handle is answered, changes the
principals only, and does not change its own output. -/
structure FindsUsers (db : Db) (tenantId : String) (doc : PermissionDocument) : Prop where
  found : db.AnswersAll tenantId doc → ∃ doc', resolvePrincipals db tenantId doc = .ok doc'
  replaced : ∀ doc', resolvePrincipals db tenantId doc = .ok doc' →
    doc'.version = doc.version ∧
      List.Forall₂ (fun s s' => s' = { s with principals := s'.principals } ∧
        List.Forall₂ (Replaces db tenantId) s.principals s'.principals)
        doc.statements doc'.statements
  settled : ∀ doc', resolvePrincipals db tenantId doc = .ok doc' →
    resolvePrincipals db tenantId doc' = .ok doc'

variable {db : Db} {tenantId : String} {doc : PermissionDocument}

/-- A handle is resolved to nothing. -/
theorem not_resolvable_of_handle {p x : String} (h : ByHandle p x) : ¬Resolvable db tenantId p := by
  obtain ⟨rfl, hx⟩ := h
  have hsplit : splitOnce ("user:" ++ x) ':' = some ("user", x) :=
    splitOnce_prefixed (by decide : ':' ∉ "user".toList) x
  rintro (hstar | ⟨v, u, hv, hu⟩ | ⟨role, r, hr, -⟩)
  · exact ne_star_of_splitOnce hsplit hstar
  · have hsplit' : splitOnce ("user:" ++ v) ':' = some ("user", v) :=
      splitOnce_prefixed (by decide : ':' ∉ "user".toList) v
    rw [← hv, hsplit, Option.some.injEq, Prod.mk.injEq] at hsplit'
    rw [← hsplit'.2, hx] at hu
    cases hu
  · have hsplit' : splitOnce ("role:" ++ r) ':' = some ("role", r) :=
      splitOnce_prefixed (by decide : ':' ∉ "role".toList) r
    rw [← hr, hsplit, Option.some.injEq, Prod.mk.injEq] at hsplit'
    exact absurd hsplit'.1 (by decide)

/-- A principal that is resolved is replaced by what it should be. -/
theorem replaces_of_resolved {p p' : String} (h : resolveOnePrincipal db tenantId p = .ok p') :
    Replaces db tenantId p p' := by
  have hresolvable := exists_resolveOnePrincipal.mp ⟨p', h⟩
  refine ⟨fun x hx => absurd hresolvable (not_resolvable_of_handle hx), fun role hrole => ?_,
    fun hother => ?_⟩
  · have hsame := resolveOnePrincipal_eq_ok.mpr (.inr (.inr ⟨role, hrole, rfl⟩))
    exact Except.ok.inj (h.symm.trans hsame)
  · have hsame : resolveOnePrincipal db tenantId p = .ok p :=
      resolveOnePrincipal_eq_ok.mpr (hother.imp (⟨·, rfl⟩) fun huser => .inl ⟨huser, rfl⟩)
    exact Except.ok.inj (h.symm.trans hsame)

theorem exists_mem_of_forall₂ {α β : Type} {R : α → β → Prop} {l : List α} {l' : List β}
    (h : List.Forall₂ R l l') {b : β} (hb : b ∈ l') : ∃ a ∈ l, R a b := by
  induction h with
  | nil => cases hb
  | cons hab _ ih =>
    rcases List.mem_cons.mp hb with rfl | hb
    · exact ⟨_, List.mem_cons_self, hab⟩
    · obtain ⟨a, ha, hR⟩ := ih hb
      exact ⟨a, List.mem_cons_of_mem _ ha, hR⟩

theorem exists_forall₂ {α β : Type} {R : α → β → Prop} {l : List α} :
    (∃ l', List.Forall₂ R l l') ↔ ∀ a ∈ l, ∃ b, R a b := by
  constructor
  · rintro ⟨l', h⟩ a ha
    obtain ⟨b, -, hR⟩ := exists_mem_of_forall₂ (List.Forall₂.flip h) ha
    exact ⟨b, hR⟩
  · intro h
    induction l with
    | nil => exact ⟨[], .nil⟩
    | cons a l ih =>
      rw [List.forall_mem_cons] at h
      obtain ⟨b, hb⟩ := h.1
      obtain ⟨l', hl⟩ := ih h.2
      exact ⟨b :: l', .cons hb hl⟩

/-- **A document is resolved exactly when each of its principals is.** -/
theorem exists_resolvePrincipals :
    (∃ doc', resolvePrincipals db tenantId doc = .ok doc') ↔
      ∀ p, doc.HasPrincipal p → Resolvable db tenantId p := by
  have hstatement : ∀ s : PermissionStatement, (∃ s' : PermissionStatement, ∃ ps,
      s' = { s with principals := ps } ∧
        List.Forall₂ (fun p p' => resolveOnePrincipal db tenantId p = .ok p') s.principals ps) ↔
      ∀ p ∈ s.principals, Resolvable db tenantId p := by
    intro s
    simp only [← exists_resolveOnePrincipal, ← exists_forall₂]
    exact ⟨fun ⟨_, ps, _, h⟩ => ⟨ps, h⟩, fun ⟨ps, h⟩ => ⟨_, ps, rfl, h⟩⟩
  simp only [resolvePrincipals_eq_ok]
  constructor
  · rintro ⟨_, statements, -, h⟩ p ⟨s, hs, hp⟩
    exact (hstatement s).mp (exists_forall₂.mp ⟨statements, h⟩ s hs) p hp
  · intro h
    obtain ⟨statements, hstatements⟩ := exists_forall₂.mpr fun s hs =>
      (hstatement s).mpr fun p hp => h p ⟨s, hs, hp⟩
    exact ⟨_, statements, rfl, hstatements⟩

/-- The principals of the output are what those of the input are resolved to. -/
theorem exists_of_hasPrincipal {doc' : PermissionDocument}
    (h : resolvePrincipals db tenantId doc = .ok doc') {p' : String} (hp' : doc'.HasPrincipal p') :
    ∃ p, doc.HasPrincipal p ∧ resolveOnePrincipal db tenantId p = .ok p' := by
  obtain ⟨statements, rfl, hstatements⟩ := resolvePrincipals_eq_ok.mp h
  obtain ⟨s', hs', hp'⟩ := hp'
  obtain ⟨s, hs, ps, rfl, hps⟩ := exists_mem_of_forall₂ hstatements hs'
  obtain ⟨p, hp, hresolved⟩ := exists_mem_of_forall₂ hps hp'
  exact ⟨p, ⟨s, hs, hp⟩, hresolved⟩

theorem hasPrincipal_of_resolved {doc' : PermissionDocument}
    (h : resolvePrincipals db tenantId doc = .ok doc') {p p' : String} (hp : doc.HasPrincipal p)
    (hresolved : resolveOnePrincipal db tenantId p = .ok p') : doc'.HasPrincipal p' := by
  obtain ⟨statements, rfl, hstatements⟩ := resolvePrincipals_eq_ok.mp h
  obtain ⟨s, hs, hp⟩ := hp
  obtain ⟨s', hs', ps, rfl, hps⟩ := exists_mem_of_forall₂ (List.Forall₂.flip hstatements) hs
  obtain ⟨q, hq, hsame⟩ := exists_mem_of_forall₂ (List.Forall₂.flip hps) hp
  refine ⟨_, hs', ?_⟩
  rwa [Except.ok.inj (hresolved.symm.trans hsame)]

/-- A document is settled when each of its principals is. -/
theorem resolvePrincipals_self :
    resolvePrincipals db tenantId doc = .ok doc ↔
      ∀ p, doc.HasPrincipal p → resolveOnePrincipal db tenantId p = .ok p := by
  constructor
  · rintro h p ⟨s, hs, hp⟩
    obtain ⟨statements, hdoc, hstatements⟩ := resolvePrincipals_eq_ok.mp h
    have hsame : doc.statements = statements := congrArg PermissionDocument.statements hdoc
    rw [← hsame, List.forall₂_same] at hstatements
    obtain ⟨ps, hstmt, hps⟩ := hstatements s hs
    have hprincipals : s.principals = ps := congrArg PermissionStatement.principals hstmt
    rw [← hprincipals, List.forall₂_same] at hps
    exact hps p hp
  · intro h
    refine resolvePrincipals_eq_ok.mpr ⟨doc.statements, rfl, ?_⟩
    refine List.forall₂_same.mpr fun s hs => ⟨s.principals, rfl, ?_⟩
    exact List.forall₂_same.mpr fun p hp => h p ⟨s, hs, hp⟩

/-- The role of a principal is found again by its uid. -/
def RolesSettled (db : Db) (tenantId : String) (doc : PermissionDocument) : Prop :=
  ∀ p role role', doc.HasPrincipal p → RolePrincipal db tenantId p role →
    db.roleNamed tenantId role.uid = some role' → role'.uid = role.uid

/-- The uid of a role leads to a role. -/
theorem exists_roleNamed_uid {identifier : String} {role : RoleRow}
    (h : db.roleNamed tenantId identifier = some role) :
    ∃ role', db.roleNamed tenantId role.uid = some role' := by
  have hmem := Relational.Table.selectOne_mem h
  have hpos := Relational.Table.selectOne_pos h
  rw [Bool.and_eq_true] at hpos
  refine Relational.Table.selectOne_isSome hmem ?_
  rw [hpos.1]
  simp

/-- **The named users are found exactly when no user is named by a handle** and every role is there,
or else a handle is not answered; and the output is settled exactly when the roles are. -/
theorem users_found_iff (db : Db) (tenantId : String) (doc : PermissionDocument) :
    FindsUsers db tenantId doc ↔
      (db.AnswersAll tenantId doc → ∀ p, doc.HasPrincipal p → Resolvable db tenantId p) ∧
        ((∀ p, doc.HasPrincipal p → Resolvable db tenantId p) → RolesSettled db tenantId doc) := by
  constructor
  · intro h
    refine ⟨fun hall => exists_resolvePrincipals.mp (h.found hall), fun hresolvable => ?_⟩
    obtain ⟨doc', hdoc'⟩ := exists_resolvePrincipals.mpr hresolvable
    intro p role role' hp hrole hrole'
    have hresolved := resolveOnePrincipal_eq_ok.mpr (.inr (.inr ⟨role, hrole, rfl⟩))
    -- The output has the uid, and resolving it again does not change it.
    have hsettled := resolvePrincipals_self.mp (h.settled doc' hdoc') _
      (hasPrincipal_of_resolved hdoc' hp hresolved)
    have hagain : resolveOnePrincipal db tenantId ("role:" ++ role.uid) =
        .ok ("role:" ++ role'.uid) :=
      resolveOnePrincipal_eq_ok.mpr (.inr (.inr ⟨role', ⟨_, rfl, hrole'⟩, rfl⟩))
    have htexts := congrArg String.toList (Except.ok.inj (hagain.symm.trans hsettled))
    rw [String.toList_append, String.toList_append] at htexts
    exact String.toList_inj.mp (List.append_cancel_left htexts)
  · rintro ⟨hfound, hsettled⟩
    refine ⟨fun hall => exists_resolvePrincipals.mpr (hfound hall), ?_, ?_⟩
    · intro doc' hdoc'
      obtain ⟨statements, rfl, hstatements⟩ := resolvePrincipals_eq_ok.mp hdoc'
      refine ⟨rfl, hstatements.imp ?_⟩
      rintro s _ ⟨ps, rfl, hps⟩
      exact ⟨rfl, hps.imp fun p p' => replaces_of_resolved⟩
    · intro doc' hdoc'
      have hroles := hsettled (exists_resolvePrincipals.mp ⟨doc', hdoc'⟩)
      refine resolvePrincipals_self.mpr fun p' hp' => ?_
      obtain ⟨p, hp, hresolved⟩ := exists_of_hasPrincipal hdoc' hp'
      rcases resolveOnePrincipal_eq_ok.mp hresolved with ⟨-, rfl⟩ | ⟨-, rfl⟩ | ⟨role, hrole, rfl⟩
      · exact hresolved
      · exact hresolved
      · obtain ⟨r, -, hnamed⟩ := id hrole
        obtain ⟨role', hrole'⟩ := exists_roleNamed_uid hnamed
        refine resolveOnePrincipal_eq_ok.mpr (.inr (.inr ⟨role', ⟨_, rfl, hrole'⟩, ?_⟩))
        rw [hroles p role role' hp hrole hrole']

/-- A membership with a username. -/
def bobsMembership : MembershipRow where
  id := 7
  tenantId := "acme"
  identityId := 1
  username := some "bob"
  status := "active"
  accessValidUntil := none
  createdAt := 0
  updatedAt := 0

/-- The tenant of the membership. -/
def bobsTenant : Db :=
  { Db.empty with
    tenants := .single ⟨"acme", "Acme", "active", 0⟩
    identities := .single (.ofHandles ⟨0, id, fun _ => 1⟩ (some "bob@acme.example") none none none none
      none)
    users := .single bobsMembership }

/-- A document that allows a user to run one query. -/
def runAs (principal : String) : PermissionDocument where
  version := "1.0"
  statements := [{ runVerified with principals := [principal], conditions := [] }]

/-- Bob is a member, and a document that names him is refused. -/
theorem bob_not_found : ¬FindsUsers bobsTenant "acme" (runAs "user:bob") := by
  intro h
  have hbob : ByHandle "user:bob" "bob" := ⟨rfl, by decide⟩
  have hhas : (runAs "user:bob").HasPrincipal "user:bob" :=
    ⟨_, List.mem_singleton_self _, List.mem_singleton_self _⟩
  have hall : bobsTenant.AnswersAll "acme" (runAs "user:bob") := by
    rintro p x ⟨s, hs, hp⟩ ⟨hx, -⟩
    obtain rfl := List.mem_singleton.mp hs
    rw [List.mem_singleton.mp hp] at hx
    have htexts := congrArg String.toList hx
    rw [String.toList_append] at htexts
    have hname : "bob" = x :=
      String.toList_inj.mp (@List.append_cancel_left _ "user:".toList _ _ htexts)
    exact ⟨bobsMembership, List.mem_singleton_self _, rfl, .inl (congrArg some hname)⟩
  obtain ⟨doc', hdoc'⟩ := h.found hall
  exact not_resolvable_of_handle hbob (exists_resolvePrincipals.mp ⟨doc', hdoc'⟩ _ hhas)

/-! ### Texts of ids -/

/-- Action and resource of the tuple match the request. -/
def PolicyTuple.MatchesRest (t : PolicyTuple) (req : Cedar.Request) (es : Entities) : Prop :=
  req.action = ⟨"AuthRS::Action", t.action⟩ ∧
    (resourceScope t.resource).holds es req.resource = true ∧
    ∀ e ∈ likeConditions t.resource, e.eval req es = some (.prim (.bool true))

/-- Of the requests that match otherwise, the policy applies to those of one user. -/
def AppliesTo (C : Crate) (p : Cedar.Policy) (t : PolicyTuple) (u : Uuid) : Prop :=
  ∀ userId req es, userUid C userId = some req.principal → t.MatchesRest req es →
    (p.satisfied req es = true ↔ userId = u)

theorem Resource.Covers.refl (r : List Char) : Resource.Covers r r := by
  induction r with
  | nil => exact .nil
  | cons c r ih =>
    by_cases hc : c = '*'
    · subst hc
      exact .star ['*'] ih
    · exact .char hc ih

/-- Some request matches, whoever makes it. -/
theorem PolicyTuple.exists_matchesRest (t : PolicyTuple) :
    ∃ action resource es, ∀ principal ctx, t.MatchesRest ⟨principal, action, resource, ctx⟩ es := by
  let e : Cedar.Entity := ⟨resourceEntity t.resource, [("path", .prim (.string t.resource))], []⟩
  refine ⟨⟨"AuthRS::Action", t.action⟩, e.uid, [e], fun principal ctx => ⟨rfl, ?_, ?_⟩⟩
  · unfold resourceScope
    split
    · rfl
    · exact decide_eq_true rfl
  · unfold likeConditions
    split
    · rw [List.forall_mem_singleton]
      have hpath : Cedar.Expr.eval ⟨principal, ⟨"AuthRS::Action", t.action⟩, e.uid, ctx⟩ [e]
          (.attr .resource "path") = some (.prim (.string t.resource)) := by
        simp [Cedar.Expr.eval, Cedar.Var.attr, Cedar.Entities.attr, e]
      rw [Cedar.Expr.eval, hpath]
      simp only [Resource.matchPattern_likeElems.mpr (Resource.Covers.refl _)]
    · exact List.forall_mem_nil _

theorem principalScope_user (v : String) :
    principalScope ("user:" ++ v) = .eq ⟨"AuthRS::User", v⟩ := by
  have hsplit : splitOnce ("user:" ++ v) ':' = some ("user", v) :=
    splitOnce_prefixed (by decide : ':' ∉ "user".toList) v
  rw [principalScope, if_neg (ne_star_of_splitOnce hsplit), hsplit]
  rfl

/-- **A text of an id stands for the user whose canonical text it is.** -/
theorem appliesTo_iff {C : Crate} (hU : ReadsUserIds C) {t : PolicyTuple} {v : String}
    (ht : t.principal = "user:" ++ v) (permissionDbId : String) (u : Uuid) :
    AppliesTo C (t.policy permissionDbId) t u ↔ v = u.hyphenated := by
  have hsatisfied : ∀ userId req es, userUid C userId = some req.principal →
      t.MatchesRest req es →
        ((t.policy permissionDbId).satisfied req es = true ↔ userId.hyphenated = v) := by
    intro userId req es huser hrest
    rw [hU] at huser
    rw [t.satisfied_policy_iff, PolicyTuple.Matches, ht, principalScope_user,
      ← Option.some.inj huser]
    refine Iff.trans ⟨And.left, fun h => ⟨h, hrest⟩⟩ ?_
    rw [Cedar.Scope.holds, decide_eq_true_iff, EntityUid.mk.injEq]
    exact and_iff_right rfl
  constructor
  · intro h
    obtain ⟨action, resource, es, hrest⟩ := t.exists_matchesRest
    have hmatch := hrest ⟨"AuthRS::User", u.hyphenated⟩ []
    exact ((hsatisfied u _ es (hU u) hmatch).mp
      ((h u _ es (hU u) hmatch).mpr rfl)).symm
  · rintro rfl userId req es huser hrest
    rw [hsatisfied userId req es huser hrest]
    exact Uuid.hyphenated_injective.eq_iff

/-- The tuple of a principal that the resolution keeps is a tuple of the output. -/
theorem tuple_of_resolved {doc' : PermissionDocument}
    (h : resolvePrincipals db tenantId doc = .ok doc') {t : PolicyTuple} (ht : t ∈ doc.tuples)
    (hkept : resolveOnePrincipal db tenantId t.principal = .ok t.principal) :
    ∃ t' ∈ doc'.tuples, t'.principal = t.principal ∧ t'.action = t.action ∧
      t'.resource = t.resource ∧ t'.stmt.sid = t.stmt.sid ∧ t'.stmt.effect = t.stmt.effect := by
  obtain ⟨statements, rfl, hstatements⟩ := resolvePrincipals_eq_ok.mp h
  obtain ⟨hs, hp, ha, hr⟩ := PermissionDocument.mem_tuples.mp ht
  obtain ⟨_, hs', ps, rfl, hps⟩ := exists_mem_of_forall₂ (List.Forall₂.flip hstatements) hs
  obtain ⟨q, hq, hsame⟩ := exists_mem_of_forall₂ (List.Forall₂.flip hps) hp
  refine ⟨⟨{ t.stmt with principals := ps }, t.principal, t.action, t.resource⟩,
    PermissionDocument.mem_tuples.mpr ⟨hs', ?_, ha, hr⟩, rfl, rfl, rfl, rfl, rfl⟩
  rwa [Except.ok.inj (hkept.symm.trans hsame)]

/-- **A text of an id denotes the user in a saved document exactly when it is the canonical one.** -/
theorem user_text_denotes_iff {C : Crate} (hU : ReadsUserIds C) (hP : C.ReadsPolicies) {v : String}
    {u : Uuid} (hv : Uuid.parseStr v = some u) (db : Db) (tenantId : String)
    {doc doc' : PermissionDocument} (hresolve : resolvePrincipals db tenantId doc = .ok doc')
    {permissionDbId : String} {set : PolicySet} (hcompile : compile C doc' permissionDbId = .ok set)
    {t : PolicyTuple} (ht : t ∈ doc.tuples) (hprincipal : t.principal = "user:" ++ v) :
    (∃ p ∈ set.policies, p.id = policyId permissionDbId t ∧ AppliesTo C p t u) ↔
      v = u.hyphenated := by
  have hkept : resolveOnePrincipal db tenantId t.principal = .ok t.principal :=
    resolveOnePrincipal_eq_ok.mpr (.inr (.inl ⟨⟨v, u, hprincipal, hv⟩, rfl⟩))
  obtain ⟨t', ht', hp, ha, hr, hsid, heffect⟩ := tuple_of_resolved hresolve ht hkept
  obtain ⟨-, -, hpolicies⟩ := (compile_eq_ok hP).mp hcompile
  have hsame : t'.policy permissionDbId = t.policy permissionDbId := by
    simp only [PolicyTuple.policy, policyId, hp, ha, hr, hsid, heffect]
  have hmem : t.policy permissionDbId ∈ set.policies := by
    rw [hpolicies, ← hsame]
    exact List.mem_map_of_mem ht'
  rw [← appliesTo_iff hU hprincipal permissionDbId u]
  constructor
  · rintro ⟨p, hp, hid, happlies⟩
    rwa [← List.inj_on_of_nodup_map set.nodup hp hmem hid]
  · intro happlies
    exact ⟨_, hmem, rfl, happlies⟩

/-! ### One user, two texts -/

/-- The tuple of the document. -/
def runAsTuple (principal : String) : PolicyTuple where
  stmt := { runVerified with principals := [principal], conditions := [] }
  principal := principal
  action := "run"
  resource := "service:core/package:_default/query:sample"

theorem tuples_runAs (principal : String) : (runAs principal).tuples = [runAsTuple principal] := rfl

/-- The policies of the document. -/
def runAsSet (principal : String) : PolicySet :=
  ⟨[(runAsTuple principal).policy "p"], List.nodup_singleton _⟩

theorem compile_runAs (principal : String) :
    compile Cedar.reference (runAs principal) "p" = .ok (runAsSet principal) := by
  refine (compile_eq_ok Cedar.reference_readsPolicies).mpr ⟨?_, ?_, ?_⟩
  · rw [tuples_runAs, List.forall_mem_singleton]
    rfl
  · rw [tuples_runAs]
    exact List.nodup_singleton _
  · rw [tuples_runAs]
    rfl

/-- A document that names its user by an id is saved as it is. -/
theorem resolve_runAs {v : String} {u : Uuid} (hv : Uuid.parseStr v = some u) :
    resolvePrincipals Db.empty "acme" (runAs ("user:" ++ v)) = .ok (runAs ("user:" ++ v)) := by
  refine resolvePrincipals_self.mpr ?_
  rintro p ⟨s, hs, hp⟩
  obtain rfl := List.mem_singleton.mp hs
  obtain rfl := List.mem_singleton.mp hp
  exact resolveOnePrincipal_eq_ok.mpr (.inr (.inl ⟨⟨v, u, rfl, hv⟩, rfl⟩))

theorem user_text_denotes_iff_canonical :
    (∃ p ∈ (runAsSet ("user:" ++ Uuid.hyphenated 7)).policies,
      p.id = policyId "p" (runAsTuple ("user:" ++ Uuid.hyphenated 7)) ∧
        AppliesTo Cedar.reference p (runAsTuple ("user:" ++ Uuid.hyphenated 7)) 7) ↔
      Uuid.hyphenated 7 = Uuid.hyphenated 7 :=
  user_text_denotes_iff (readsUserIds Cedar.reference_readsUids) Cedar.reference_readsPolicies
    (Uuid.parseStr_hyphenated 7) Db.empty "acme" (resolve_runAs (Uuid.parseStr_hyphenated 7))
    (compile_runAs _) (List.mem_singleton_self _) rfl

/-- The text of an id in capitals. -/
def capitals : String := "00000000-0000-0000-0000-00000000000A"

theorem parseStr_capitals : Uuid.parseStr capitals = some 10 := by decide +kernel

/-- A principal in capitals is saved as it is, and its policy does not apply to the user. -/
theorem capitals_not_denoted :
    Uuid.parseStr capitals = some 10 ∧
      resolvePrincipals Db.empty "acme" (runAs ("user:" ++ capitals)) =
        .ok (runAs ("user:" ++ capitals)) ∧
      compile Cedar.reference (runAs ("user:" ++ capitals)) "p" =
        .ok (runAsSet ("user:" ++ capitals)) ∧
      ¬∃ p ∈ (runAsSet ("user:" ++ capitals)).policies,
        AppliesTo Cedar.reference p (runAsTuple ("user:" ++ capitals)) 10 := by
  refine ⟨parseStr_capitals, resolve_runAs parseStr_capitals, compile_runAs _, ?_⟩
  rintro ⟨p, hp, happlies⟩
  obtain rfl := List.mem_singleton.mp hp
  have hcanonical := (appliesTo_iff (readsUserIds Cedar.reference_readsUids) rfl "p" 10).mp happlies
  revert hcanonical
  decide +kernel

end Authrs
