import Authrs.Admin.Isolation
import Authrs.Interaction.Interrupted

/-!
# Users and roles of a group

Adding a user to a group, and assigning a role to one, is an insert that requires both ends to be the
tenant's. An insert that touches no row is looked into: the group is searched for, and nothing else.
So a missing group is told apart from a link that is already there, and a missing user or role is
not: the operation succeeds, and there is no link.

## Main definitions

* `GroupLink`: what is linked to a group: a user or a role
* `GroupLink.link`: the operation; `GroupLink.insert`: its insert
* `GroupLink.Truthful`: the operation succeeds exactly when both ends are the tenant's
* `Db.NoneAdded`: no user, group or role has come into being
* `GroupLink.TruthfulOn`: on an interrupted run, the operation succeeds only if the link was inserted
  or was there

## Main results

* `GroupLink.insert_cases`: what the insert does
* `GroupLink.truthful_iff`, `GroupLink.truthfulOn_iff`: when the operation is truthful
-/

namespace Authrs

open Interaction Relational

/-- What is linked to a group. -/
inductive GroupLink
  | user (userId : Uuid)
  | role (roleId : Uuid)
  deriving DecidableEq

namespace GroupLink

/-- **The operation** of the repository. -/
def link (tenantId : String) (groupId : Uuid) : GroupLink → Service Unit
  | user userId => GroupsRepo.addUser tenantId groupId userId
  | role roleId => GroupsRepo.assignRole tenantId groupId roleId

/-- The user or the role is the tenant's. -/
def Owned (db : Db) (tenantId : String) : GroupLink → Prop
  | user userId => db.ownsUser tenantId userId
  | role roleId => db.ownsRole tenantId roleId

/-- The row of the link is there. -/
def Linked (db : Db) (groupId : Uuid) : GroupLink → Prop
  | user userId => ∃ x ∈ db.userGroups, x.userId = userId ∧ x.groupId = groupId
  | role roleId => ∃ x ∈ db.groupRoles, x.groupId = groupId ∧ x.roleId = roleId

/-- The insert: the number of rows that it touches, and the tables after it. -/
def insert (env : SqlEnv) (db : Db) (tenantId : String) (groupId : Uuid) : GroupLink → Nat × Db
  | user userId => insertUserGroup env db tenantId userId groupId
  | role roleId => insertGroupRole db tenantId groupId roleId

/-- The message of a refusal. -/
def message : GroupLink → String
  | user _ => "Group not found in tenant"
  | role _ => "Group or role not found in tenant"

/-- The state after the insert. -/
def inserted (w : World) (s : State) (tenantId : String) (groupId : Uuid) (l : GroupLink) : State :=
  { s with db := (l.insert (s.sqlEnv w) s.db tenantId groupId).2 }

variable {w : World} {s : State} {tenantId : String} {groupId : Uuid} {l : GroupLink}

/-- **What the insert does**: the link is inserted, or nothing is changed and one end is not the
tenant's or the link is there. -/
theorem insert_cases (env : SqlEnv) (db : Db) (tenantId : String) (groupId : Uuid) (l : GroupLink) :
    (l.Owned db tenantId ∧ db.ownsGroup tenantId groupId ∧ ¬l.Linked db groupId ∧
        (l.insert env db tenantId groupId).1 = 1 ∧
          l.Linked (l.insert env db tenantId groupId).2 groupId) ∨
      (¬(l.Owned db tenantId ∧ db.ownsGroup tenantId groupId ∧ ¬l.Linked db groupId) ∧
        l.insert env db tenantId groupId = (0, db)) := by
  cases l with
  | user userId =>
    simp only [Owned, Linked, insert, insertUserGroup]
    -- The `SELECT` finds both ends in the tenant, and the primary key decides about the row.
    by_cases hends : (db.userIn tenantId userId).isSome = true ∧
        (db.groupIn tenantId groupId).isSome = true
    · rw [if_pos hends]
      obtain ⟨huser, hgroup⟩ := hends
      rw [Db.userIn_isSome] at huser
      rw [Db.groupIn_isSome] at hgroup
      cases hrow : db.userGroups.insert? ⟨userId, groupId, env.now⟩ with
      | none =>
        obtain ⟨x, hx, hkey⟩ := Table.insert?_eq_none.mp hrow
        obtain ⟨hid, hgid⟩ := Prod.mk.inj hkey
        exact .inr ⟨fun h => h.2.2 ⟨x, hx, hid, hgid⟩, rfl⟩
      | some t =>
        refine .inl ⟨huser, hgroup, ?_, rfl, _, (Table.mem_insert? hrow).mpr (.inl rfl), rfl, rfl⟩
        rintro ⟨x, hx, hid, hgid⟩
        exact Table.insert?_fresh hrow hx (Prod.ext hid hgid)
    · rw [if_neg hends]
      refine .inr ⟨fun h => hends ⟨?_, ?_⟩, rfl⟩
      · exact Db.userIn_isSome.mpr h.1
      · exact Db.groupIn_isSome.mpr h.2.1
  | role roleId =>
    simp only [Owned, Linked, insert, insertGroupRole]
    by_cases hends : (db.groupIn tenantId groupId).isSome = true ∧
        (db.roleIn tenantId roleId).isSome = true
    · rw [if_pos hends]
      obtain ⟨hgroup, hrole⟩ := hends
      rw [Db.roleIn_isSome] at hrole
      rw [Db.groupIn_isSome] at hgroup
      cases hrow : db.groupRoles.insert? ⟨groupId, roleId⟩ with
      | none =>
        obtain ⟨x, hx, hkey⟩ := Table.insert?_eq_none.mp hrow
        obtain ⟨hgid, hid⟩ := Prod.mk.inj hkey
        exact .inr ⟨fun h => h.2.2 ⟨x, hx, hgid, hid⟩, rfl⟩
      | some t =>
        refine .inl ⟨hrole, hgroup, ?_, rfl, _, (Table.mem_insert? hrow).mpr (.inl rfl), rfl, rfl⟩
        rintro ⟨x, hx, hgid, hid⟩
        exact Table.insert?_fresh hrow hx (Prod.ext hgid hid)
    · rw [if_neg hends]
      refine .inr ⟨fun h => hends ⟨?_, ?_⟩, rfl⟩
      · exact Db.groupIn_isSome.mpr h.2.1
      · exact Db.roleIn_isSome.mpr h.1

/-! ### Alone -/

theorem exec_link (w : World) (s : State) (tenantId : String) (groupId : Uuid) (l : GroupLink) :
    (l.link tenantId groupId).exec (handle w) s =
      (GroupsRepo.requireGroup tenantId groupId (l.insert (s.sqlEnv w) s.db tenantId groupId).1
        l.message).exec (handle w) (l.inserted w s tenantId groupId) := by
  cases l <;> rfl

/-- What is looked into after an insert that touched no row. -/
theorem exec_requireGroup_zero (w : World) (s : State) (tenantId : String) (groupId : Uuid)
    (message : String) :
    (GroupsRepo.requireGroup tenantId groupId 0 message).exec (handle w) s =
      (if (s.db.groupIn tenantId groupId).isSome then .ok ()
        else .error (.error (.notFound message)), s) := by
  unfold GroupsRepo.requireGroup
  rw [if_pos rfl, Program.bind_eq, Program.exec_bind_ok _ (exec_query_read rfl rfl),
    Service.exec_ensure]
  cases s.db.groupIn tenantId groupId <;> rfl

/-- **The operation is truthful**: it succeeds exactly when both ends are the tenant's, and then the
link is there; otherwise it is `NotFound` and nothing is changed. -/
structure Truthful (w : World) (s : State) (tenantId : String) (groupId : Uuid) (l : GroupLink) :
    Prop where
  ok_iff : (∃ s', (l.link tenantId groupId).exec (handle w) s = (.ok (), s')) ↔
    l.Owned s.db tenantId ∧ s.db.ownsGroup tenantId groupId
  ok_linked : ∀ s', (l.link tenantId groupId).exec (handle w) s = (.ok (), s') →
    l.Linked s'.db groupId
  refused : ∀ e s', (l.link tenantId groupId).exec (handle w) s = (.error e, s') →
    e = .error (.notFound l.message) ∧ s' = s

/-- The operation, by what the insert does. -/
theorem exec_link_cases (w : World) (s : State) (tenantId : String) (groupId : Uuid)
    (l : GroupLink) :
    (l.Owned s.db tenantId ∧ s.db.ownsGroup tenantId groupId ∧
        ∃ s', (l.link tenantId groupId).exec (handle w) s = (.ok (), s') ∧
          l.Linked s'.db groupId) ∨
      (¬(l.Owned s.db tenantId ∧ s.db.ownsGroup tenantId groupId ∧ ¬l.Linked s.db groupId) ∧
        (l.link tenantId groupId).exec (handle w) s =
          (if (s.db.groupIn tenantId groupId).isSome then .ok ()
            else .error (.error (.notFound l.message)), s)) := by
  rw [exec_link]
  rcases l.insert_cases (s.sqlEnv w) s.db tenantId groupId with
    ⟨howned, hgroup, -, htouched, hlinked⟩ | ⟨hnot, hnone⟩
  · refine .inl ⟨howned, hgroup, l.inserted w s tenantId groupId, ?_, hlinked⟩
    rw [htouched]
    rfl
  · refine .inr ⟨hnot, ?_⟩
    have hstate : l.inserted w s tenantId groupId = s := by
      unfold inserted
      rw [hnone]
    rw [hnone, hstate]
    exact exec_requireGroup_zero w s tenantId groupId l.message

/-- **When the operation is truthful**: unless the group is the tenant's and the user or the role is
not. -/
theorem truthful_iff :
    l.Truthful w s tenantId groupId ↔
      (s.db.ownsGroup tenantId groupId → l.Owned s.db tenantId) := by
  rcases l.exec_link_cases w s tenantId groupId with
    ⟨howned, hgroup, s', hexec, hlinked⟩ | ⟨hnot, hexec⟩
  · refine iff_of_true ⟨iff_of_true ⟨s', hexec⟩ ⟨howned, hgroup⟩, ?_, ?_⟩ fun _ => howned
    · intro s₁ hok
      rw [hexec] at hok
      cases hok
      exact hlinked
    · intro e s₁ herror
      rw [hexec] at herror
      cases herror
  · by_cases hgroup : s.db.ownsGroup tenantId groupId
    · rw [if_pos (Db.groupIn_isSome.mpr hgroup)] at hexec
      constructor
      · intro htruthful _
        exact (htruthful.ok_iff.mp ⟨s, hexec⟩).1
      · intro howned
        refine ⟨iff_of_true ⟨s, hexec⟩ ⟨howned hgroup, hgroup⟩, ?_, ?_⟩
        · intro s' hok
          rw [hexec] at hok
          cases hok
          by_contra hlinked
          exact hnot ⟨howned hgroup, hgroup, hlinked⟩
        · intro e s' herror
          rw [hexec] at herror
          cases herror
    · rw [if_neg (mt Db.groupIn_isSome.mp hgroup)] at hexec
      refine iff_of_true ⟨?_, ?_, ?_⟩ fun h => absurd h hgroup
      · refine iff_of_false ?_ fun h => hgroup h.2
        rintro ⟨s', hok⟩
        rw [hexec] at hok
        cases hok
      · intro s' hok
        rw [hexec] at hok
        cases hok
      · intro e s' herror
        rw [hexec] at herror
        cases herror
        exact ⟨rfl, rfl⟩

/-! ### Among others -/

/-- The request of the insert. -/
def request (tenantId : String) (groupId : Uuid) : GroupLink → Request
  | user userId => .sql (.groups (.addUser tenantId userId groupId))
  | role roleId => .sql (.groups (.assignRole tenantId groupId roleId))

variable {R : State → State → Prop} {tr : List (Event authrs × State)} {r : Except Failure Unit}

/-- The insert, and what follows it. -/
theorem interrupted_link :
    Program.Interrupted (handle w) R (l.link tenantId groupId) s tr r ↔
      ∃ s₁ tr', R s s₁ ∧
        tr = (⟨l.request tenantId groupId, (handle w (l.request tenantId groupId) s₁).1⟩, s₁) :: tr' ∧
        Program.Interrupted (handle w) R (GroupsRepo.requireGroup tenantId groupId
          (l.insert (s₁.sqlEnv w) s₁.db tenantId groupId).1 l.message)
            (l.inserted w s₁ tenantId groupId) tr' r := by
  cases l <;> exact Program.interrupted_ask

/-- The look into an insert that touched no row. -/
theorem interrupted_requireGroup_zero {message : String} :
    Program.Interrupted (handle w) R (GroupsRepo.requireGroup tenantId groupId 0 message) s tr r ↔
      ∃ e s₁, R s s₁ ∧ e = ⟨.sql (.groups (.existsInTenant groupId tenantId)),
          .ok ((s₁.db.groupIn tenantId groupId).map (·.id))⟩ ∧ tr = [(e, s₁)] ∧
        r = if (s₁.db.groupIn tenantId groupId).isSome then .ok ()
          else .error (.error (.notFound message)) := by
  have hlook : ∀ {s₁ : State} {tr' : List (Event authrs × State)},
      Program.Interrupted (handle w) R (Service.ensure
        ((s₁.db.groupIn tenantId groupId).map (·.id) ≠ none) (.notFound message)) s₁ tr' r ↔
          tr' = [] ∧ r = if (s₁.db.groupIn tenantId groupId).isSome then .ok ()
            else .error (.error (.notFound message)) := by
    intro s₁ tr'
    cases s₁.db.groupIn tenantId groupId with
    | none => exact Program.interrupted_throw
    | some g => exact Program.interrupted_pure
  constructor
  · intro h
    obtain ⟨s₁, tr', hmoved, rfl, hrest⟩ := Program.interrupted_ask.mp h
    obtain ⟨rfl, hr⟩ := hlook.mp hrest
    exact ⟨_, s₁, hmoved, rfl, rfl, hr⟩
  · rintro ⟨_, s₁, hmoved, rfl, rfl, hr⟩
    exact Program.interrupted_ask.mpr ⟨s₁, [], hmoved, rfl, hlook.mpr ⟨rfl, hr⟩⟩

end GroupLink

/-- **No user, group or role has come into being**: others have at most deleted some. -/
structure Db.NoneAdded (db db' : Db) : Prop where
  users : ∀ T id, db'.ownsUser T id → db.ownsUser T id
  groups : ∀ T id, db'.ownsGroup T id → db.ownsGroup T id
  roles : ∀ T id, db'.ownsRole T id → db.ownsRole T id

namespace GroupLink

variable {w : World} {s : State} {tenantId : String} {groupId : Uuid} {l : GroupLink}
  {tr : List (Event authrs × State)} {r : Except Failure Unit}

/-- **On this run the operation is truthful**: it succeeds only if the link was inserted or was there
already, and otherwise it is `NotFound` and has changed nothing. -/
structure TruthfulOn (w : World) (tenantId : String) (groupId : Uuid) (l : GroupLink)
    (tr : List (Event authrs × State)) (r : Except Failure Unit) : Prop where
  ok_linked : r = .ok () → ∃ x ∈ tr, x.1.request = l.request tenantId groupId ∧
    ((l.insert (x.2.sqlEnv w) x.2.db tenantId groupId).1 = 1 ∨ l.Linked x.2.db groupId)
  refused : ∀ e, r = .error e → e = .error (.notFound l.message) ∧
    ∀ x ∈ tr, x.1.request = l.request tenantId groupId →
      (l.insert (x.2.sqlEnv w) x.2.db tenantId groupId).2 = x.2.db

/-- The insert finds neither the user or the role nor the link, and the group is found after it. -/
def Missed (tenantId : String) (groupId : Uuid) (l : GroupLink)
    (tr : List (Event authrs × State)) : Prop :=
  ∃ x y, tr = [x, y] ∧ ¬l.Owned x.2.db tenantId ∧ ¬l.Linked x.2.db groupId ∧
    y.2.db.ownsGroup tenantId groupId

/-- **When the operation is truthful among others** that only delete: unless the insert finds neither
the user or the role nor the link, and the group is found after it. -/
theorem truthfulOn_iff
    (h : Program.Interrupted (handle w) (fun s s' => s.db.NoneAdded s'.db) (l.link tenantId groupId)
      s tr r) : l.TruthfulOn w tenantId groupId tr r ↔ ¬l.Missed tenantId groupId tr := by
  obtain ⟨s₁, tr', -, rfl, hrest⟩ := interrupted_link.mp h
  rcases l.insert_cases (s₁.sqlEnv w) s₁.db tenantId groupId with
    ⟨-, -, -, htouched, -⟩ | ⟨hnot, hnone⟩
  · -- the insert has touched a row: there is no second exchange
    rw [htouched] at hrest
    obtain ⟨rfl, rfl⟩ := Program.interrupted_pure.mp hrest
    refine iff_of_true ⟨fun _ => ⟨_, List.mem_cons_self, rfl, .inl htouched⟩, ?_⟩ ?_
    · rintro e ⟨⟩
    · rintro ⟨x, y, htr, -⟩
      cases htr
  · have hstate : l.inserted w s₁ tenantId groupId = s₁ := by
      unfold inserted
      rw [hnone]
    rw [hnone, hstate] at hrest
    obtain ⟨e, s₂, hmoved, he, rfl, rfl⟩ := interrupted_requireGroup_zero.mp hrest
    -- the second exchange is not the insert
    have hinsert : ∀ e₁, ∀ x ∈ [(e₁, s₁), (e, s₂)],
        x.1.request = l.request tenantId groupId → x.2 = s₁ := by
      intro e₁ x hx hrequest
      rcases List.mem_cons.mp hx with rfl | hx
      · rfl
      · obtain rfl := List.mem_singleton.mp hx
        rw [he] at hrequest
        cases l <;> cases hrequest
    by_cases hgroup : s₂.db.ownsGroup tenantId groupId
    · rw [if_pos (Db.groupIn_isSome.mpr hgroup)]
      have howned : l.Owned s₁.db tenantId → l.Linked s₁.db groupId := by
        intro howned
        by_contra hlinked
        exact hnot ⟨howned, hmoved.groups _ _ hgroup, hlinked⟩
      constructor
      · rintro htruthful ⟨x, y, htr, -, hlinked, -⟩
        cases htr
        obtain ⟨x, hx, hrequest, hgranted⟩ := htruthful.ok_linked rfl
        rw [hinsert _ x hx hrequest, hnone] at hgranted
        exact hgranted.elim Nat.zero_ne_one hlinked
      · intro hmissed
        refine ⟨fun _ => ⟨_, List.mem_cons_self, rfl, .inr ?_⟩, by rintro e ⟨⟩⟩
        by_contra hlinked
        exact hmissed ⟨_, _, rfl, mt howned hlinked, hlinked, hgroup⟩
    · rw [if_neg (mt Db.groupIn_isSome.mp hgroup)]
      refine iff_of_true ⟨by rintro ⟨⟩, ?_⟩ ?_
      · rintro e ⟨⟩
        refine ⟨rfl, fun x hx hrequest => ?_⟩
        rw [hinsert _ x hx hrequest, hnone]
      · rintro ⟨x, y, htr, -, -, hfound⟩
        cases htr
        exact hgroup hfound

end GroupLink

theorem Db.NoneAdded.refl (db : Db) : db.NoneAdded db :=
  ⟨fun _ _ => id, fun _ _ => id, fun _ _ => id⟩

/-- **When the group operations are truthful**: alone, unless the group is the tenant's and the user or
the role is not; among others that only delete, unless the insert finds neither the user or the role
nor the link, and the group is found after it. -/
theorem group_link_truthful_iff (w : World) (tenantId : String) (groupId : Uuid) (l : GroupLink) :
    (∀ s, l.Truthful w s tenantId groupId ↔
      (s.db.ownsGroup tenantId groupId → l.Owned s.db tenantId)) ∧
    ∀ s tr r,
      Program.Interrupted (handle w) (fun s s' => s.db.NoneAdded s'.db) (l.link tenantId groupId)
        s tr r →
      (l.TruthfulOn w tenantId groupId tr r ↔ ¬l.Missed tenantId groupId tr) :=
  ⟨fun _ => GroupLink.truthful_iff, fun _ _ _ => GroupLink.truthfulOn_iff⟩

/-! ### A user of another tenant -/

/-- A group of `globex`, and a user of `acme`. -/
def strangerAndGroup : State :=
  .ofDb { Db.empty with
    tenants := acmeAndGlobex
    identities := .single (.ofHandles ⟨0, id, fun _ => 7⟩ (some "ann@acme.example") none none none
      none none)
    users := .single ⟨5, "acme", 7, none, "active", none, 0, 0⟩
    groups := .single ⟨1, "globex", "Staff", "staff", none, 0⟩ } 0

theorem strangerAndGroup_owns : strangerAndGroup.db.ownsGroup "globex" 1 ∧
    ¬strangerAndGroup.db.ownsUser "globex" 5 := by
  constructor
  · exact ⟨_, List.mem_singleton_self _, rfl, rfl⟩
  · rintro ⟨u, hu, -, htenant⟩
    obtain rfl := List.mem_singleton.mp hu
    exact absurd htenant (by decide)

/-- Whatever is added to a group of no tenant is refused. -/
theorem group_link_truthful_iff_unknown :
    (GroupLink.user 5).TruthfulOn .offline "globex" 2
      (((GroupLink.user 5).link "globex" 2).trace (handle .offline) strangerAndGroup)
      (((GroupLink.user 5).link "globex" 2).exec (handle .offline) strangerAndGroup).1 := by
  refine ((group_link_truthful_iff .offline "globex" 2 (.user 5)).2 strangerAndGroup _ _ ?_).mpr ?_
  · exact Program.interrupted_of_exec (fun s => .refl s.db) _ _
  · have htrace : (((GroupLink.user 5).link "globex" 2).trace (handle .offline)
        strangerAndGroup).map Prod.snd = [strangerAndGroup, strangerAndGroup] := rfl
    rintro ⟨x, y, htr, -, -, g, hg, hid, -⟩
    rw [htr] at htrace
    obtain ⟨-, hy⟩ := List.cons.inj htrace
    obtain ⟨hy, -⟩ := List.cons.inj hy
    rw [hy] at hg
    obtain rfl := List.mem_singleton.mp hg
    exact absurd hid (by decide)

/-- **The operation succeeds for a user of another tenant**, and there is no link. -/
theorem stranger_not_added :
    ¬ ∀ (w : World) (s : State) (tenantId : String) (groupId : Uuid) (l : GroupLink),
      l.Truthful w s tenantId groupId := by
  intro h
  obtain ⟨hgroup, huser⟩ := strangerAndGroup_owns
  exact huser (GroupLink.truthful_iff.mp (h .offline strangerAndGroup "globex" 1 (.user 5)) hgroup)

end Authrs
