import Authrs.Cedar.Reference
import Authrs.Policy.Engine

/-!
# The resource of a policy and the resource of a request

The compiler writes the entity of a wildcard-free resource into JSON, which takes its id literally;
the engine writes it into a quoted text, which the crate reads when it is the text that the identity
is displayed as. The two agree on the ids that are displayed as they are. On those, a policy names a
resource of a request exactly when the last segments have one type and the paths one list of stripped
segments: prefixes in front are not compared, and an unknown prefix is a service.

## Main definitions

* `NamesResource`: the entity of a policy's resource is the entity of a request's

## Main results

* `exact_resource_match_iff`: which resources a wildcard-free resource names
* `resource_ids_agree_iff`: when a compiled policy and a request agree on a resource
-/

namespace Authrs

open Cedar (Crate Scope Normal PlainAscii)

/-- `parse_resource` on `p` constrains the resource to the entity that `resource_root_uid` finds
for `r`. -/
def NamesResource (C : Crate) (p r : String) : Prop :=
  ∃ u, parseResource p = (Scope.eq u).toJson ∧ resourceRootUid C r = some u

/-- The id of a resource's entity. -/
abbrev idChars (resource : String) : List Char :=
  (Resource.entityId (splitChar resource '/')).toList

theorem eq_toJson_inj {u v : Cedar.EntityUid} (h : (Scope.eq u).toJson = (Scope.eq v).toJson) :
    u = v := by
  simp only [Scope.toJson, Cedar.EntityUid.toJson, Json.object.injEq, List.cons.injEq,
    Prod.mk.injEq, Json.string.injEq, true_and, and_true] at h
  cases u
  cases v
  rw [Cedar.EntityUid.mk.injEq]
  exact ⟨h.2, h.1⟩

variable {C : Crate}

theorem namesResource_iff {p r : String} (hp : Resource.isWildcard p = false) :
    NamesResource C p r ↔ resourceRootUid C r = some (resourceEntity p) := by
  have hscope : parseResource p = (Scope.eq (resourceEntity p)).toJson := by
    rw [parseResource_eq, resourceScope, hp]
    rfl
  constructor
  · rintro ⟨u, hu, hr⟩
    rw [hscope] at hu
    rwa [eq_toJson_inj hu]
  · exact fun hr => ⟨_, hscope, hr⟩

/-- **Which resources a wildcard-free resource names**: those of its type whose stripped path is the
text that its own stripped path is displayed as. -/
theorem exact_resource_match_iff (hC : C.ReadsUids) (p r : String)
    (hp : Resource.isWildcard p = false) :
    (NamesResource C p r ↔ Resource.entityType p = Resource.entityType r ∧
      idChars r = Cedar.escapeDebug C.tables (idChars p)) ∧
    (Normal C.tables (idChars r) →
      (NamesResource C p r ↔ Resource.entityType p = Resource.entityType r ∧
        (splitChar p '/').map Resource.stripPrefix =
          (splitChar r '/').map Resource.stripPrefix)) := by
  rw [namesResource_iff hp]
  constructor
  · have htype := isTypeName_of_mem (Resource.entityType_mem r)
    have hread := hC _ (Resource.entityId (splitChar r '/')) (resourceEntity p) htype
    refine Iff.trans hread (and_congr ⟨append_left_cancel, congrArg ("AuthRS::" ++ ·)⟩ ?_)
    rw [← String.toList_inj, Crate.eidText, String.toList_ofList]
    rfl
  · intro hnormal
    rw [resourceRootUid_of_normal hC hnormal, Option.some.injEq, resourceEntity_eq_iff r p]
    exact and_congr eq_comm eq_comm

theorem exact_resource_match_iff_sample :
    ¬ NamesResource Cedar.reference "service:core/package:p/query:q"
        "service:core/package:p/view:q" := by
  have hplain : ∀ c ∈ idChars "service:core/package:p/view:q", PlainAscii c :=
    Cedar.forall_plainAscii (by decide)
  rw [(exact_resource_match_iff Cedar.reference_readsUids _ _ (by decide)).2
    (Cedar.normal_of_ascii hplain)]
  decide

/-- A policy on `service:a` is a policy on `a`. -/
theorem unprefixed_resource_matched :
    ¬ ∀ p r : String, Resource.isWildcard p = false → Resource.isWildcard r = false → p ≠ r →
      ¬ NamesResource Cedar.reference p r := by
  intro h
  refine h "service:a" "a" (by decide) (by decide) (by decide) ?_
  have hplain : ∀ c ∈ idChars "a", PlainAscii c := Cedar.forall_plainAscii (by decide)
  rw [namesResource_iff (by decide),
    resourceRootUid_of_normal Cedar.reference_readsUids (Cedar.normal_of_ascii hplain)]
  decide

/-- **A compiled policy and a request agree on a resource exactly when its stripped path is displayed
as it is**: without quotes, apostrophes, backslashes and what does not print, and not beginning with a
character that extends another. -/
theorem resource_ids_agree_iff (hU : C.ReadsUids) (hP : C.ReadsPolicies) {doc : PermissionDocument}
    {permissionDbId : String} {set : Cedar.PolicySet}
    (hset : compile C doc permissionDbId = .ok set) {t : PolicyTuple} (ht : t ∈ doc.tuples)
    (hexact : Resource.isWildcard t.resource = false) :
    (∃ p ∈ set.policies, p.id = policyId permissionDbId t ∧
      ∃ u, p.resource = .eq u ∧ resourceRootUid C t.resource = some u) ↔
    Normal C.tables (idChars t.resource) := by
  obtain ⟨-, hnodup, hpolicies⟩ := (compile_eq_ok hP).mp hset
  have hscope : resourceScope t.resource = .eq (resourceEntity t.resource) := by
    rw [resourceScope, hexact]
    rfl
  rw [← resourceRootUid_eq_iff hU]
  constructor
  · rintro ⟨p, hp, hid, u, hu, hroot⟩
    rw [hpolicies] at hp
    obtain ⟨t', ht', rfl⟩ := List.mem_map.mp hp
    -- The ids are distinct, so it is the policy of this tuple.
    obtain rfl : t' = t := List.inj_on_of_nodup_map hnodup ht' ht hid
    have heq : Scope.eq (resourceEntity t'.resource) = .eq u := hscope.symm.trans hu
    rw [hroot, (Scope.eq.inj heq)]
  · intro hroot
    refine ⟨t.policy permissionDbId, ?_, rfl, _, hscope, hroot⟩
    rw [hpolicies]
    exact List.mem_map_of_mem ht

/-! ### A resource with an escape sequence -/

/-- Nobody may run a query, on a resource whose id has a backslash in it. -/
def denyEscaped (resource : String) : PermissionDocument where
  version := "1.0"
  statements := [{
    sid := "s"
    effect := .deny
    principals := ["*"]
    actions := ["run"]
    resources := [resource]
    conditions := [] }]

theorem compile_denyEscaped (resource : String) :
    ∃ set, compile Cedar.reference (denyEscaped resource) "p" = .ok set := by
  have hids : (((denyEscaped resource).tuples.map (PolicyTuple.policy "p")).map
      Cedar.Policy.id).Nodup := List.nodup_singleton _
  refine ⟨⟨_, hids⟩, (compile_eq_ok Cedar.reference_readsPolicies).mpr ⟨?_, ?_, rfl⟩⟩
  · intro t ht
    rw [List.mem_singleton.mp ht]
  · exact List.nodup_singleton _

theorem resource_ids_agree_sample :
    ∃ set, compile Cedar.reference (denyEscaped "service:core") "p" = .ok set ∧
      ∃ p ∈ set.policies, ∃ u, p.resource = .eq u ∧
        resourceRootUid Cedar.reference "service:core" = some u := by
  obtain ⟨set, hset⟩ := compile_denyEscaped "service:core"
  have hplain : ∀ c ∈ idChars "service:core", PlainAscii c := Cedar.forall_plainAscii (by decide)
  obtain ⟨p, hp, -, h⟩ := (resource_ids_agree_iff Cedar.reference_readsUids
    Cedar.reference_readsPolicies hset List.mem_cons_self (by decide)).mpr
      (Cedar.normal_of_ascii hplain)
  exact ⟨set, hset, p, hp, h⟩

/-- The denial is on an id with a backslash and an `n`, the request on one with a line feed. -/
theorem escaped_resource_missed :
    ∃ set, compile Cedar.reference (denyEscaped "service:a\\nb") "p" = .ok set ∧
      ¬ ∃ p ∈ set.policies, ∃ u, p.resource = .eq u ∧
        resourceRootUid Cedar.reference "service:a\\nb" = some u := by
  obtain ⟨set, hset⟩ := compile_denyEscaped "service:a\\nb"
  refine ⟨set, hset, ?_⟩
  rintro ⟨p, hp, u, hu, hroot⟩
  rw [((compile_eq_ok Cedar.reference_readsPolicies).mp hset).2.2] at hp
  rw [List.mem_singleton.mp hp] at hu
  have hread : resourceRootUid Cedar.reference "service:a\\nb" =
      some ⟨"AuthRS::Service", "a\nb"⟩ := by decide
  rw [hread, Option.some.injEq] at hroot
  have heq : Scope.eq (resourceEntity "service:a\\nb") = .eq u := hu
  rw [← Scope.eq.inj heq] at hroot
  exact absurd hroot (by decide)

end Authrs
