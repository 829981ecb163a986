import Authrs.Cedar.Reference
import Authrs.Policy.Compiler

/-!
# One policy for each tuple

When the ids of the policies of a document are distinct, and the merging of the sets compiled from
several documents.

An id joins the document's id, the statement's sid, the action and the resource with dashes, and
leaves the principal out. So two principals of a statement collide, and so do triples whose joined
texts are equal. The ids of two documents never collide: a UUID's text has a fixed length.

## Main definitions

* `PolicyTuple.joined`, `PermissionDocument.IdsSeparate`: when no two ids collide
* `policySetForRoles`: the loop of `get_policy_set_for_roles`

## Main results

* `one_policy_per_tuple`: when a document without conditions compiles, and that merging succeeds
* `policySetForRoles_eq_ok`: when the permissions of some roles make a set, and which
-/

namespace Authrs

open Cedar (Crate PolicySet)

/-- What an id has after the document's own. -/
def PolicyTuple.joined (t : PolicyTuple) : String :=
  t.stmt.sid ++ "-" ++ t.action ++ "-" ++ t.resource

/-- No two ids of the document collide: a statement that has actions and resources has at most one
principal, and triples with one joined text are equal. -/
def PermissionDocument.IdsSeparate (doc : PermissionDocument) : Prop :=
  (∀ s ∈ doc.statements, s.actions ≠ [] → s.resources ≠ [] → s.principals.length ≤ 1) ∧
  ∀ t ∈ doc.tuples, ∀ t' ∈ doc.tuples, t.joined = t'.joined →
    t.stmt.sid = t'.stmt.sid ∧ t.action = t'.action ∧ t.resource = t'.resource

/-- No conditions, distinct sids, and lists without duplicates. -/
structure PermissionDocument.Plain (doc : PermissionDocument) : Prop where
  conditions : ∀ s ∈ doc.statements, s.conditions = []
  sids : (doc.statements.map PermissionStatement.sid).Nodup
  principals : ∀ s ∈ doc.statements, s.principals.Nodup
  actions : ∀ s ∈ doc.statements, s.actions.Nodup
  resources : ∀ s ∈ doc.statements, s.resources.Nodup

theorem policyId_eq (permissionDbId : String) (t : PolicyTuple) :
    policyId permissionDbId t = permissionDbId ++ ("-" ++ t.joined) := by
  simp only [policyId, PolicyTuple.joined, String.append_assoc]

theorem policyId_eq_iff {permissionDbId : String} {t t' : PolicyTuple} :
    policyId permissionDbId t = policyId permissionDbId t' ↔ t.joined = t'.joined := by
  rw [policyId_eq, policyId_eq]
  constructor
  · intro h
    have hlist := congrArg String.toList h
    simp only [String.toList_append] at hlist
    exact String.toList_inj.mp (List.append_cancel_left (List.append_cancel_left hlist))
  · intro h
    rw [h]

namespace PermissionDocument

variable {doc : PermissionDocument}

/-- A statement is determined by its sid. -/
theorem Plain.stmt_eq (h : doc.Plain) {s s' : PermissionStatement} (hs : s ∈ doc.statements)
    (hs' : s' ∈ doc.statements) (hsid : s.sid = s'.sid) : s = s' :=
  List.inj_on_of_nodup_map h.sids hs hs' hsid

theorem nodup_tuples_of_statement {s : PermissionStatement} (hp : s.principals.Nodup)
    (ha : s.actions.Nodup) (hr : s.resources.Nodup) : s.tuples.Nodup := by
  rw [PermissionStatement.tuples, List.nodup_flatMap]
  constructor
  · intro principal _
    rw [List.nodup_flatMap]
    constructor
    · intro action _
      exact hr.map fun r r' h => (PolicyTuple.mk.inj h).2.2.2
    · refine ha.imp fun {action action'} hne => ?_
      intro t ht ht'
      obtain ⟨r, -, rfl⟩ := List.mem_map.mp ht
      obtain ⟨r', -, h⟩ := List.mem_map.mp ht'
      exact hne (PolicyTuple.mk.inj h).2.2.1.symm
  · refine hp.imp fun {principal principal'} hne => ?_
    intro t ht ht'
    obtain ⟨a, -, ht⟩ := List.mem_flatMap.mp ht
    obtain ⟨r, -, rfl⟩ := List.mem_map.mp ht
    obtain ⟨a', -, ht'⟩ := List.mem_flatMap.mp ht'
    obtain ⟨r', -, h⟩ := List.mem_map.mp ht'
    exact hne (PolicyTuple.mk.inj h).2.1.symm

theorem Plain.nodup_tuples (h : doc.Plain) : doc.tuples.Nodup := by
  rw [tuples, List.nodup_flatMap]
  constructor
  · intro s hs
    exact nodup_tuples_of_statement (h.principals s hs) (h.actions s hs) (h.resources s hs)
  · refine (h.sids.of_map _).imp fun {s s'} hne => ?_
    intro t ht ht'
    exact hne ((PermissionStatement.mem_tuples.mp ht).1.symm.trans
      (PermissionStatement.mem_tuples.mp ht').1)

theorem length_tuples (doc : PermissionDocument) :
    doc.tuples.length = (doc.statements.map fun s =>
      s.principals.length * s.actions.length * s.resources.length).sum := by
  have hstatement : ∀ s : PermissionStatement, s.tuples.length =
      s.principals.length * s.actions.length * s.resources.length := by
    intro s
    simp [PermissionStatement.tuples, List.length_flatMap, Nat.mul_assoc]
  rw [tuples, List.length_flatMap]
  simp only [hstatement]

/-- **The ids of a document are distinct exactly when no two of them collide.** -/
theorem Plain.nodup_ids_iff (h : doc.Plain) (permissionDbId : String) :
    (doc.tuples.map (policyId permissionDbId)).Nodup ↔ doc.IdsSeparate := by
  rw [List.nodup_map_iff_inj_on h.nodup_tuples]
  constructor
  · intro hinj
    refine ⟨fun s hs ha hr => ?_, fun t ht t' ht' hjoined => ?_⟩
    · -- Two tuples that differ in the principal only have one id.
      obtain ⟨a, _, hactions⟩ := List.exists_cons_of_ne_nil ha
      obtain ⟨r, _, hresources⟩ := List.exists_cons_of_ne_nil hr
      have hmem : ∀ p ∈ s.principals, (⟨s, p, a, r⟩ : PolicyTuple) ∈ doc.tuples := by
        intro p hp
        rw [mem_tuples]
        refine ⟨hs, hp, ?_, ?_⟩
        · rw [hactions]
          exact List.mem_cons_self
        · rw [hresources]
          exact List.mem_cons_self
      have hprincipals := h.principals s hs
      cases hlist : s.principals with
      | nil => exact Nat.zero_le 1
      | cons p ps =>
        cases ps with
        | nil => exact le_rfl
        | cons p' ps =>
          rw [hlist] at hmem hprincipals
          have heq := hinj _ (hmem p List.mem_cons_self) _
            (hmem p' (List.mem_cons_of_mem _ List.mem_cons_self)) (policyId_eq_iff.mpr rfl)
          rw [(PolicyTuple.mk.inj heq).2.1, List.nodup_cons] at hprincipals
          exact absurd List.mem_cons_self hprincipals.1
    · rw [hinj t ht t' ht' (policyId_eq_iff.mpr hjoined)]
      exact ⟨rfl, rfl, rfl⟩
  · rintro ⟨hprincipals, htriples⟩ t ht t' ht' hid
    obtain ⟨hsid, haction, hresource⟩ := htriples t ht t' ht' (policyId_eq_iff.mp hid)
    obtain ⟨hs, hp, ha, hr⟩ := mem_tuples.mp ht
    obtain ⟨hs', hp', -, -⟩ := mem_tuples.mp ht'
    have hstmt := h.stmt_eq hs hs' hsid
    rw [← hstmt] at hp'
    have hone := hprincipals t.stmt hs (List.ne_nil_of_mem ha) (List.ne_nil_of_mem hr)
    -- A statement of a tuple has actions and resources, and so one principal.
    have hprincipal : t.principal = t'.principal := by
      cases hlist : t.stmt.principals with
      | nil =>
        rw [hlist] at hp
        cases hp
      | cons p ps =>
        rw [hlist, List.length_cons] at hone
        have hnil : ps = [] := List.length_eq_zero_iff.mp (by omega)
        rw [hlist, hnil, List.mem_singleton] at hp hp'
        rw [hp, hp']
    cases t
    cases t'
    simp only at hstmt hprincipal haction hresource
    rw [hstmt, hprincipal, haction, hresource]

end PermissionDocument

/-! ### Merging -/

variable (C : Crate)

/-- Add the policies of a compiled set. -/
def addPolicies (set : PolicySet) (policies : List Cedar.Policy) : Except AppError PolicySet :=
  policies.foldlM (fun set policy => (set.add C.idTaken policy).mapError .internal) set

/-- The loop of `get_policy_set_for_roles` over the permissions of the roles. -/
def policySetForRoles (docs : List (Uuid × PermissionDocument)) : Except AppError PolicySet :=
  docs.foldlM (fun set d => do
    let compiled ← compile C d.2 d.1.hyphenated
    addPolicies C set compiled.policies) PolicySet.new

/-- The policies of a permission. -/
def permissionPolicies (d : Uuid × PermissionDocument) : List Cedar.Policy :=
  d.2.tuples.map (PolicyTuple.policy d.1.hyphenated)

theorem addPolicies_eq_ok {set set' : PolicySet} {policies : List Cedar.Policy} :
    addPolicies C set policies = .ok set' ↔ set.addAll C.idTaken policies = .ok set' := by
  induction policies generalizing set with
  | nil =>
    constructor
    · intro h
      cases h
      rfl
    · intro h
      cases h
      rfl
  | cons p ps ih =>
    rw [addPolicies, PolicySet.addAll, List.foldlM_cons, List.foldlM_cons]
    cases set.add C.idTaken p with
    | error e =>
      constructor
      · intro h
        cases h
      · intro h
        cases h
    | ok s => exact ih

variable {C}

theorem foldlM_permissions_eq_ok (hC : C.ReadsPolicies) {docs : List (Uuid × PermissionDocument)}
    {set set' : PolicySet} :
    docs.foldlM (fun set d => do
        let compiled ← compile C d.2 d.1.hyphenated
        addPolicies C set compiled.policies) set = .ok set' ↔
      (∀ d ∈ docs, ∃ s, compile C d.2 d.1.hyphenated = .ok s) ∧
        set.addAll C.idTaken (docs.flatMap permissionPolicies) = .ok set' := by
  induction docs generalizing set with
  | nil =>
    constructor
    · intro h
      cases h
      exact ⟨List.forall_mem_nil _, rfl⟩
    · rintro ⟨-, h⟩
      cases h
      rfl
  | cons d docs ih =>
    rw [List.foldlM_cons, List.forall_mem_cons, List.flatMap_cons, PolicySet.addAll,
      List.foldlM_append]
    cases hcompile : compile C d.2 d.1.hyphenated with
    | error e =>
      constructor
      · intro h
        cases h
      · rintro ⟨⟨⟨s, hs⟩, -⟩, -⟩
        cases hs
    -- The document compiles, and its policies are added one by one.
    | ok s =>
      have hpolicies : s.policies = permissionPolicies d := ((compile_eq_ok hC).mp hcompile).2.2
      change (addPolicies C set s.policies >>= fun set => _) = _ ↔ _
      rw [hpolicies]
      cases hadd : set.addAll C.idTaken (permissionPolicies d) with
      | error e =>
        have hnone : ∀ s, addPolicies C set (permissionPolicies d) ≠ .ok s := by
          intro s hs
          rw [addPolicies_eq_ok, hadd] at hs
          cases hs
        cases hstep : addPolicies C set (permissionPolicies d) with
        | error e' =>
          rw [PolicySet.addAll] at hadd
          rw [hadd]
          constructor
          · intro h
            cases h
          · rintro ⟨-, h⟩
            cases h
        | ok s => exact absurd hstep (hnone s)
      | ok s₁ =>
        rw [(addPolicies_eq_ok C).mpr hadd]
        rw [PolicySet.addAll] at hadd
        rw [hadd]
        exact ih.trans ⟨fun h => ⟨⟨⟨s, rfl⟩, h.1⟩, h.2⟩, fun h => ⟨h.1.2, h.2⟩⟩

/-- When the permissions of some roles make a set, and which. -/
theorem policySetForRoles_eq_ok (hC : C.ReadsPolicies) {docs : List (Uuid × PermissionDocument)}
    {set : PolicySet} :
    policySetForRoles C docs = .ok set ↔
      (∀ d ∈ docs, ∃ s, compile C d.2 d.1.hyphenated = .ok s) ∧
        ((docs.flatMap permissionPolicies).map Cedar.Policy.id).Nodup ∧
        set.policies = docs.flatMap permissionPolicies := by
  rw [policySetForRoles, foldlM_permissions_eq_ok hC, PolicySet.addAll_eq_ok,
    PolicySet.policies_new, List.nil_append]

/-- The ids of a permission start with its UUID. -/
theorem id_of_mem_permissionPolicies {d : Uuid × PermissionDocument} {p : Cedar.Policy}
    (hp : p ∈ permissionPolicies d) : ∃ rest, p.id = d.1.hyphenated ++ rest := by
  obtain ⟨t, -, rfl⟩ := List.mem_map.mp hp
  exact ⟨"-" ++ t.joined, policyId_eq _ t⟩

/-- **The ids of two permissions never collide.** -/
theorem permissions_disjoint {d d' : Uuid × PermissionDocument} (hne : d.1 ≠ d'.1)
    {p p' : Cedar.Policy} (hp : p ∈ permissionPolicies d) (hp' : p' ∈ permissionPolicies d') :
    p.id ≠ p'.id := by
  obtain ⟨rest, hid⟩ := id_of_mem_permissionPolicies hp
  obtain ⟨rest', hid'⟩ := id_of_mem_permissionPolicies hp'
  intro heq
  rw [hid, hid'] at heq
  have hlist := congrArg String.toList heq
  rw [String.toList_append, String.toList_append] at hlist
  have htexts := (List.append_inj hlist (by simp)).1
  exact hne (Uuid.hyphenated_injective (String.toList_inj.mp htexts))

theorem nodup_permissionPolicies (hC : C.ReadsPolicies)
    {docs : List (Uuid × PermissionDocument)} (hids : (docs.map Prod.fst).Nodup)
    (hdocs : ∀ d ∈ docs, ∃ s, compile C d.2 d.1.hyphenated = .ok s) :
    ((docs.flatMap permissionPolicies).map Cedar.Policy.id).Nodup := by
  induction docs with
  | nil => exact List.nodup_nil
  | cons d docs ih =>
    rw [List.map_cons, List.nodup_cons] at hids
    rw [List.forall_mem_cons] at hdocs
    obtain ⟨s, hs⟩ := hdocs.1
    rw [List.flatMap_cons, List.map_append, List.nodup_append]
    refine ⟨?_, ih hids.2 hdocs.2, ?_⟩
    · rw [permissionPolicies, List.map_map]
      exact ((compile_eq_ok hC).mp hs).2.1
    · intro a ha b hb
      obtain ⟨p, hp, rfl⟩ := List.mem_map.mp ha
      obtain ⟨p', hp', rfl⟩ := List.mem_map.mp hb
      obtain ⟨d', hd', hp'⟩ := List.mem_flatMap.mp hp'
      refine permissions_disjoint ?_ hp hp'
      rintro heq
      exact hids.1 (heq ▸ List.mem_map_of_mem hd')

/-- **One policy for each tuple**: a document without conditions, with distinct sids and lists
without duplicates, compiles exactly when no two of its ids collide; merging the sets of distinct
permissions always succeeds. -/
theorem one_policy_per_tuple (hC : C.ReadsPolicies) :
    (∀ (doc : PermissionDocument) (permissionDbId : String), doc.Plain →
      ((∃ set, compile C doc permissionDbId = .ok set ∧
          set.policies = doc.tuples.map (PolicyTuple.policy permissionDbId) ∧
          set.policies.length = (doc.statements.map fun s =>
            s.principals.length * s.actions.length * s.resources.length).sum) ↔
        doc.IdsSeparate)) ∧
    ∀ docs : List (Uuid × PermissionDocument), (docs.map Prod.fst).Nodup →
      (∀ d ∈ docs, ∃ s, compile C d.2 d.1.hyphenated = .ok s) →
        ∃ set, policySetForRoles C docs = .ok set := by
  refine ⟨fun doc permissionDbId h => ?_, fun docs hids hdocs => ?_⟩
  · rw [← h.nodup_ids_iff permissionDbId]
    constructor
    · rintro ⟨set, hset, -⟩
      exact ((compile_eq_ok hC).mp hset).2.1
    · intro hnodup
      have hconditions : ∀ t ∈ doc.tuples, t.stmt.conditions = [] := fun t ht =>
        h.conditions t.stmt (PermissionDocument.mem_tuples.mp ht).1
      have hpolicies : ((doc.tuples.map (PolicyTuple.policy permissionDbId)).map
          Cedar.Policy.id).Nodup := by
        rw [List.map_map]
        exact hnodup
      refine ⟨⟨_, hpolicies⟩, (compile_eq_ok hC).mpr ⟨hconditions, hnodup, rfl⟩, rfl, ?_⟩
      rw [List.length_map, PermissionDocument.length_tuples]
  · exact ⟨⟨_, nodup_permissionPolicies hC hids hdocs⟩,
      (policySetForRoles_eq_ok hC).mpr ⟨hdocs, nodup_permissionPolicies hC hids hdocs, rfl⟩⟩

/-! ### Three documents -/

/-- Everyone may run one query. -/
def runSample : PermissionDocument where
  version := "1.0"
  statements := [{
    sid := "s"
    effect := .allow
    principals := ["*"]
    actions := ["run"]
    resources := ["service:core/package:_default/query:sample"]
    conditions := [] }]

/-- Two users may run one query. -/
def runSampleTwice : PermissionDocument where
  version := "1.0"
  statements := [{
    sid := "s"
    effect := .allow
    principals := ["user:ann", "user:bob"]
    actions := ["run"]
    resources := ["service:core/package:_default/query:sample"]
    conditions := [] }]

/-- Clerks may run and list two queries, and one user may not run the second one. -/
def clerksButBob : PermissionDocument where
  version := "1.0"
  statements := [{
    sid := "clerks"
    effect := .allow
    principals := ["role:clerk"]
    actions := ["run", "list"]
    resources := ["service:core/package:_default/query:sample",
      "service:core/package:_default/query:other"]
    conditions := [] }, {
    sid := "bob"
    effect := .deny
    principals := ["user:bob"]
    actions := ["run"]
    resources := ["service:core/package:_default/query:other"]
    conditions := [] }]

theorem runSampleTwice_plain : runSampleTwice.Plain where
  conditions := by decide
  sids := by decide
  principals := by decide
  actions := by decide
  resources := by decide

theorem clerksButBob_plain : clerksButBob.Plain where
  conditions := by decide
  sids := by decide
  principals := by decide
  actions := by decide
  resources := by decide

theorem clerksButBob_idsSeparate : clerksButBob.IdsSeparate := ⟨by decide, by decide +kernel⟩

/-- The document has a policy for each of its five tuples, and two permissions may both have it. -/
theorem one_policy_per_tuple_clerksButBob :
    (∃ set, compile Cedar.reference clerksButBob "p" = .ok set ∧ set.policies.length = 5) ∧
      ∃ set, policySetForRoles Cedar.reference [(1, clerksButBob), (2, clerksButBob)] = .ok set := by
  obtain ⟨hone, hmerge⟩ := one_policy_per_tuple Cedar.reference_readsPolicies
  have hcompiles : ∀ id, ∃ set, compile Cedar.reference clerksButBob id = .ok set ∧
      set.policies.length = 5 := by
    intro id
    obtain ⟨set, hset, -, hlength⟩ :=
      (hone clerksButBob id clerksButBob_plain).mpr clerksButBob_idsSeparate
    exact ⟨set, hset, hlength⟩
  refine ⟨hcompiles "p", hmerge _ (by decide) fun d hd => ?_⟩
  obtain ⟨set, hset, -⟩ := hcompiles d.1.hyphenated
  rcases List.mem_pair.mp hd with rfl | rfl <;> exact ⟨set, hset⟩

/-- The second principal's policy has the id of the first's. -/
theorem two_principals_refused : runSampleTwice.Plain ∧
    ¬ ∃ set, compile Cedar.reference runSampleTwice "p" = .ok set := by
  refine ⟨runSampleTwice_plain, ?_⟩
  rintro ⟨set, hset⟩
  have hnodup := ((compile_eq_ok Cedar.reference_readsPolicies).mp hset).2.1
  exact absurd hnodup (by decide)

end Authrs
