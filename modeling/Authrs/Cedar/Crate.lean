import Mathlib.Algebra.Order.BigOperators.Group.List
import Mathlib.Algebra.Order.Group.Nat
import Authrs.Cedar.Json
import Authrs.Cedar.Quoted

/-!
# The functions of the crate

The functions of the `cedar_policy` crate that a program calls, and what its documentation says of
them. The functions are a parameter; each law stands in a structure of its own, so that a result
names the laws it rests on. `reference` is an instance of the fragment that satisfies them.

## Main definitions

* `Crate`: the functions
* `Crate.eidText`, `Crate.ReadsUids`: the text form of an entity's identity
* `Crate.ReadsPolicies`: the JSON form of a policy
* `Crate.ReadsContexts`: the JSON form of a context
* `Crate.Validates`: entities and requests are checked against the schema
* `Crate.Authorizes`: the decision on a request
-/

namespace Cedar

open Authrs (Json)

/-- The functions of the crate. What a schema declares is kept as three checks: whether an action
applies to a principal and a resource of given types, whether a context is of the type the action
declares, and whether an entity is of a declared type. -/
structure Crate where
  Schema : Type
  /-- The tables that the display of an identity goes by. -/
  tables : EscapeTables
  /-- `EntityUid::from_str` -/
  uidFromStr : String → Option EntityUid
  /-- `Policy::from_json` -/
  policyFromJson : String → Json → Except String Policy
  /-- The error of `PolicySet::add` -/
  idTaken : String → String
  /-- `Context::from_json_value` without a schema -/
  contextFromJson : Json → Option Context
  /-- `Entity::new` -/
  entityNew : EntityUid → List (String × Value) → List EntityUid → Option Entity
  /-- `Entities::from_entities` -/
  entitiesFromEntities : List Entity → Schema → Option Entities
  /-- `Request::new` with a schema -/
  requestNew : EntityUid → EntityUid → EntityUid → Context → Schema → Option Request
  /-- `Authorizer::is_authorized` -/
  isAuthorized : Request → PolicySet → Entities → Decision
  appliesTo : Schema → EntityUid → (principalType resourceType : String) → Bool
  acceptsContext : Schema → EntityUid → Context → Bool
  acceptsEntity : Schema → Entity → Bool

namespace Crate

/-- The text of an identity: the type, and the id as a quoted text. -/
def uidText (typeName id : String) : String := typeName ++ "::\"" ++ id ++ "\""

theorem uidText_injective {T text text' : String} (h : uidText T text = uidText T text') :
    text = text' := by
  have hlist := congrArg String.toList h
  simp only [uidText, String.toList_append, List.append_assoc, List.append_cancel_left_eq,
    List.append_cancel_right_eq, String.toList_inj] at hlist
  exact hlist

/-- The text of an id between its quotes, as the display of an identity writes it. -/
def eidText (C : Crate) (id : String) : String := .ofList (escapeDebug C.tables id.toList)

/-- **An identity is read from the text that it is displayed as**, and from no other: a text with
another spelling of the same identity is refused. -/
def ReadsUids (C : Crate) : Prop :=
  ∀ (T text : String) (u : EntityUid), IsTypeName T →
    (C.uidFromStr (uidText T text) = some u ↔ u.typeName = T ∧ text = C.eidText u.eid)

/-- A policy of the fragment is read from its JSON, ids of entities taken literally; and a JSON
that is read as a policy has expressions as its conditions. -/
structure ReadsPolicies (C : Crate) : Prop where
  policy_of_json : ∀ (id : String) (p : Policy), p.Valid →
    C.policyFromJson id p.toJson = .ok { p with id := id }
  json_of_policy : ∀ (id : String) (j : Json) (p : Policy),
    C.policyFromJson id j = .ok p → ConditionsJson j

/-- A JSON object whose values are booleans, strings and integers of 64 bits is a record. -/
structure ReadsContexts (C : Crate) : Prop where
  context_of_json : ∀ fields : List (String × Prim), (fields.map Prod.fst).Nodup →
    (∀ f ∈ fields, (Expr.lit f.2).Valid) →
      C.contextFromJson (.object (fields.map fun f => (f.1, f.2.toJson))) =
        some (fields.map fun f => (f.1, .prim f.2))

/-- Chains of parents end. -/
def WellFounded (es : List Entity) : Prop :=
  ∃ rank : EntityUid → Nat, ∀ e ∈ es, ∀ p ∈ e.parents, rank p < rank e.uid

theorem WellFounded.nil : WellFounded [] := ⟨fun _ => 0, List.forall_mem_nil _⟩

/-- **An entity that is not among the parents so far, nor among its own, makes no circle.** -/
theorem WellFounded.snoc {es : List Entity} {e : Entity} (h : WellFounded es)
    (hnew : ∀ e' ∈ es, e'.uid ≠ e.uid) (hearlier : ∀ e' ∈ es, e.uid ∉ e'.parents)
    (hself : e.uid ∉ e.parents) : WellFounded (es ++ [e]) := by
  obtain ⟨rank, hrank⟩ := h
  -- The new entity is above all of its parents.
  refine ⟨fun u => if u = e.uid then (e.parents.map rank).sum + 1 else rank u, fun e' he' q hq => ?_⟩
  beta_reduce
  rcases List.mem_append.mp he' with he' | he'
  · have hq' : q ≠ e.uid := fun heq => hearlier e' he' (heq ▸ hq)
    rw [if_neg hq', if_neg (hnew e' he')]
    exact hrank e' he' q hq
  · obtain rfl := List.mem_singleton.mp he'
    have hq' : q ≠ e'.uid := fun heq => hself (heq ▸ hq)
    rw [if_neg hq', if_pos rfl]
    exact Nat.lt_succ_of_le (List.le_sum_of_mem (List.mem_map_of_mem hq))

/-- Entities are accepted when each is of a declared type, none is given twice and parents are not
circular; a request is accepted when its action applies to its principal and its resource and its
context is of the type the action declares. -/
structure Validates (C : Crate) : Prop where
  entity_of_strings : ∀ (uid : EntityUid) (attrs : List (String × String))
    (parents : List EntityUid),
      C.entityNew uid (attrs.map fun a => (a.1, .prim (.string a.2))) parents =
        some ⟨uid, attrs.map fun a => (a.1, .prim (.string a.2)), parents⟩
  entities_of_list : ∀ (es : List Entity) (s : C.Schema), (∀ e ∈ es, C.acceptsEntity s e = true) →
    (es.map Entity.uid).Nodup → WellFounded es → C.entitiesFromEntities es s = some es
  request_of_parts : ∀ (p a r : EntityUid) (ctx : Context) (s : C.Schema),
    C.requestNew p a r ctx s =
      if C.appliesTo s a p.typeName r.typeName && C.acceptsContext s a ctx then some ⟨p, a, r, ctx⟩
      else none

/-- A request is allowed when some `permit` policy applies to it and no `forbid` policy does. -/
def Authorizes (C : Crate) : Prop :=
  ∀ req ps es, C.isAuthorized req ps es = ps.decision req es

variable {C : Crate}

theorem eidText_eq_self_iff {id : String} : C.eidText id = id ↔ Normal C.tables id.toList := by
  rw [← escapeDebug_eq_self_iff, eidText, ← String.toList_inj, String.toList_ofList]

/-- **The id that a text is read as** is the one that is displayed as the text. -/
theorem ReadsUids.eq_some_iff (hC : C.ReadsUids) {T text id : String} (hT : IsTypeName T) :
    C.uidFromStr (uidText T text) = some ⟨T, id⟩ ↔ text = C.eidText id := by
  rw [hC T text _ hT]
  exact and_iff_right rfl

/-- **An id is read from its text as it is exactly when it is displayed as it is.** -/
theorem ReadsUids.iff_normal (hC : C.ReadsUids) {T id : String} (hT : IsTypeName T) :
    C.uidFromStr (uidText T id) = some ⟨T, id⟩ ↔ Normal C.tables id.toList := by
  rw [hC.eq_some_iff hT, eq_comm, eidText_eq_self_iff]

theorem ReadsUids.of_normal (hC : C.ReadsUids) {T id : String} (hT : IsTypeName T)
    (hid : Normal C.tables id.toList) : C.uidFromStr (uidText T id) = some ⟨T, id⟩ :=
  (hC.iff_normal hT).mpr hid

end Crate

end Cedar
