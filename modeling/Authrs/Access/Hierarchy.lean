import Authrs.Access.Grants
import Authrs.Relational.Forest

/-!
# The role hierarchy under concurrent calls

Setting a parent walks up from the new parent and then updates the row, in two statements. A move
that another call makes in between can put the child above the new parent; the walk has not seen
it, and the update closes a cycle. Two calls that make each of two roles the parent of the other
do this. Without such an overtaking move the hierarchy stays acyclic in every run, and the walks
up from a role end.

## Main definitions

* `Db.ParentOf`, `Db.AtOrAbove`: the hierarchy
* `Db.WalksEnd`: the recursive queries along the hierarchy end
* `Overtaken`: a move overtaken by another one since its walk

## Main results

* `Sql.exec_parentOf`: a statement adds one edge at most
* `not_above_of_probe`: what a walk without a find says
* `hierarchy_acyclic`: the hierarchy stays acyclic in every run without overtaken moves
* `roles_cross`: two calls close a cycle
-/

namespace Authrs

open Interaction Relational Relation

namespace Db

/-- `b` is the parent of `a`. -/
def ParentOf (db : Db) (a b : Uuid) : Prop := ∃ r ∈ db.roles, r.id = a ∧ r.parentRoleId = some b

/-- `b` is the role `a`, or above it. -/
def AtOrAbove (db : Db) (a b : Uuid) : Prop := ReflTransGen db.ParentOf a b

/-- The hierarchy has no cycle. -/
def AcyclicRoles (db : Db) : Prop := Acyclic db.ParentOf

/-- **The walks end**: `validate_parent` and `get_role_ancestors` get their answers. -/
def WalksEnd (db : Db) : Prop :=
  (∀ parentRoleId childRoleId tenantId, ∃ x,
    (RoleStmt.cycleProbe parentRoleId childRoleId tenantId).exec db = .ok (x, db)) ∧
  ∀ tenantId roleId, ∃ x, (RoleStmt.getRoleAncestors tenantId roleId).exec db = .ok (x, db)

end Db

/-! ### Statements -/

/-- The edge that a statement adds to the hierarchy. -/
def Sql.addsParent : Sql → Option (Uuid × Uuid)
  | .roles (.insert id _ _ _ (some p)) => some (id, p)
  | .roles (.setParent (some p) roleId _) => some (roleId, p)
  | _ => none

section Statements

variable {db db' : Db} {a b : Uuid}

theorem RoleStmt.exec_parentOf {q : RoleStmt} {r : q.Rows} (h : q.exec db = .ok (r, db'))
    (hab : db'.ParentOf a b) : db.ParentOf a b ∨ (Sql.roles q).addsParent = some (a, b) := by
  obtain ⟨x, hx, rfl, hb⟩ := hab
  -- The insert and the update add the edge that they name; the delete takes edges away.
  cases q with
  | insert =>
    obtain ⟨row, t, -, hid, hparent, hins, -, -, rfl⟩ := insertRole_ok h
    rcases (Table.mem_insert? hins).mp hx with rfl | hx
    · rw [hb] at hparent
      subst hparent
      exact .inr (by rw [hid]; rfl)
    · exact .inl ⟨x, hx, rfl, hb⟩
  | setParent =>
    obtain ⟨-, rfl⟩ := setParent_ok h
    obtain ⟨y, hy, rfl⟩ := Db.mem_reparent.mp hx
    split at hb
    · next hchosen =>
      change _ = some b at hb
      subst hb
      exact .inr (by rw [if_pos hchosen, RoleRow.withParent_id, hchosen.1]; rfl)
    · next hnot =>
      rw [if_neg hnot]
      exact .inl ⟨y, hy, rfl, hb⟩
  | delete =>
    simp only [exec] at h
    split at h <;> cases h
    · exact .inl ⟨x, hx, rfl, hb⟩
    · obtain ⟨y, hy, -, rfl⟩ := Db.mem_dropRole.mp hx
      refine .inl ⟨y, hy, (y.orphaned_id _).symm, ?_⟩
      unfold RoleRow.orphaned at hb
      split at hb
      · cases hb
      · exact hb
  | assignRoleToUser =>
    obtain rfl | ⟨_, -, -, -, rfl⟩ := insertUserRole_ok h <;> exact .inl ⟨x, hx, rfl, hb⟩
  | cycleProbe =>
    obtain ⟨_, -, h⟩ := bind_eq_ok.mp h
    cases h
    exact .inl ⟨x, hx, rfl, hb⟩
  | getRoleAncestors =>
    obtain ⟨_, -, h⟩ := bind_eq_ok.mp h
    cases h
    exact .inl ⟨x, hx, rfl, hb⟩
  | _ =>
    cases h
    exact .inl ⟨x, hx, rfl, hb⟩

/-- **A statement adds one edge at most.** -/
theorem Sql.exec_parentOf {env : SqlEnv} {q : Sql} {r : q.Rows} (h : q.exec env db = .ok (r, db'))
    (hab : db'.ParentOf a b) : db.ParentOf a b ∨ q.addsParent = some (a, b) := by
  have hsame : db'.roles = db.roles → db.ParentOf a b ∨ q.addsParent = some (a, b) := by
    intro hroles
    obtain ⟨x, hx, hid, hb⟩ := hab
    exact .inl ⟨x, hroles ▸ hx, hid, hb⟩
  cases q with
  | roles => exact RoleStmt.exec_parentOf h hab
  | users => exact hsame (by rw [MembershipStmt.exec_frame h])
  | groups => exact hsame (by rw [GroupStmt.exec_frame h])
  | permissions => exact hsame (by rw [PermissionStmt.exec_frame h])
  | identities => exact hsame (by rw [IdentityStmt.exec_frame h])
  | challenges => exact hsame (by rw [ChallengeStmt.exec_frame h])
  | oauth => exact hsame (by rw [OauthStmt.exec_frame h])
  | tokens => exact hsame (by rw [TokenStmt.exec_frame h])
  | sessions => exact hsame (by rw [SessionStmt.exec_frame h])
  | kv => exact hsame (by rw [KvStmt.exec_eq h])
  | otps => exact hsame (by rw [OtpStmt.exec_frame h])

theorem Sql.exec_addsEdge {env : SqlEnv} {q : Sql} {r : q.Rows} (h : q.exec env db = .ok (r, db'))
    (hq : q.addsParent = some (a, b)) : AddsEdge db.ParentOf db'.ParentOf a b := by
  intro x y hxy
  refine (Sql.exec_parentOf h hxy).imp_right fun hadds => ?_
  rw [hq] at hadds
  cases hadds
  exact ⟨rfl, rfl⟩

theorem Sql.exec_addsNone {env : SqlEnv} {q : Sql} {r : q.Rows} (h : q.exec env db = .ok (r, db'))
    (hq : q.addsParent = none) (hab : db'.ParentOf a b) : db.ParentOf a b := by
  refine (Sql.exec_parentOf h hab).resolve_right fun hadds => ?_
  rw [hq] at hadds
  cases hadds

end Statements

/-! ### Walks -/

section Walks

variable {db : Db} {T : String} {c : Uuid}

theorem roleIn_of_owns {id : Uuid} (h : db.ownsRole T id) :
    ∃ r ∈ db.roles, r.id = id ∧ r.tenantId = T ∧ db.roleIn T id = some r := by
  obtain ⟨r, hr⟩ := Option.isSome_iff_exists.mp (Db.roleIn_isSome.mpr h)
  have hpos := Table.selectOne_pos hr
  simp only [Bool.and_eq_true, decide_eq_true_eq] at hpos
  exact ⟨r, Table.selectOne_mem hr, hpos.1, hpos.2, hr⟩

/-- A walk from a role of the tenant that ends without a find passes by all that is above. -/
theorem not_above_of_climb (hs : db.HierarchySound) {n : Nat} {r : RoleRow} (hr : r ∈ db.roles)
    (ht : r.tenantId = T) (h : db.climb T c n (some r) = .ok none) : ¬ db.AtOrAbove r.id c := by
  induction n generalizing r with
  | zero => cases h
  | succ n ih =>
    rw [Db.climb] at h
    split at h
    · cases h
    · next hne =>
      intro habove
      rcases habove.cases_head with heq | ⟨b, ⟨x, hx, hid, hb⟩, habove⟩
      · exact hne heq
      · -- the parent is of the tenant, so the walk goes on from it
        obtain rfl := Table.eq_of_key_eq hx hr hid
        obtain ⟨q, hq, rfl, hqt, hfind⟩ := roleIn_of_owns (ht ▸ hs.parents x hx b hb)
        rw [hb, Option.bind_some, hfind] at h
        exact ih hq hqt h habove

/-- **What a walk without a find says.** -/
theorem not_above_of_probe {db' : Db} {p : Uuid} (hs : db.HierarchySound)
    (hp : db.roleOnlyIn T p) (hne : p ≠ c)
    (h : (RoleStmt.cycleProbe p c T).exec db = .ok (none, db')) : ¬ db.AtOrAbove p c := by
  obtain ⟨x, hclimb, h⟩ := bind_eq_ok.mp h
  cases h
  intro habove
  rcases habove.cases_head with heq | ⟨b, ⟨x, hx, hid, hb⟩, -⟩
  · exact hne heq
  · have hsel : db.roles.selectOne (fun r => r.id = p) = some x :=
      Table.selectOne_key.mpr ⟨hx, hid⟩
    rw [hsel] at hclimb
    subst hid
    exact not_above_of_climb hs hx (hp x hx rfl) hclimb habove

/-- The row of the parent, as the walks look it up. -/
def nextUp (db : Db) (T : String) (r : RoleRow) : Option RoleRow :=
  r.parentRoleId.bind (db.roleIn T)

theorem nextUp_eq_some {a b : RoleRow} (h : nextUp db T a = some b) :
    b ∈ db.roles ∧ a.parentRoleId = some b.id := by
  obtain ⟨p, hp, hb⟩ := Option.bind_eq_some_iff.mp h
  have hpos := Table.selectOne_pos hb
  simp only [Bool.and_eq_true, decide_eq_true_eq] at hpos
  exact ⟨Table.selectOne_mem hb, hp.trans (congrArg some hpos.1.symm)⟩

/-- The way of a walk is a way in the hierarchy. -/
theorem acyclic_nextUp (h : db.AcyclicRoles) : Acyclic fun a b => nextUp db T a = some b := by
  have hway : ∀ {a b : RoleRow}, a ∈ db.roles →
      TransGen (fun a b => nextUp db T a = some b) a b → b ∈ db.roles ∧
        TransGen db.ParentOf a.id b.id := by
    intro a b ha hab
    induction hab with
    | single hb =>
      obtain ⟨hb, hp⟩ := nextUp_eq_some hb
      exact ⟨hb, .single ⟨a, ha, rfl, hp⟩⟩
    | tail _ hbc ih =>
      obtain ⟨hb, hway⟩ := ih
      obtain ⟨hc, hp⟩ := nextUp_eq_some hbc
      exact ⟨hc, hway.tail ⟨_, hb, rfl, hp⟩⟩
  intro a haa
  obtain ⟨b, -, hba⟩ := TransGen.tail'_iff.mp haa
  exact h a.id (hway (nextUp_eq_some hba).1 haa).2

theorem exists_climb {n : Nat} {r : RoleRow} (h : ascend (nextUp db T) n r = none) :
    ∃ x, db.climb T c n (some r) = .ok x := by
  induction n generalizing r with
  | zero => cases h
  | succ n ih =>
    rw [Db.climb]
    split
    · exact ⟨_, rfl⟩
    · change ∃ x, db.climb T c n (nextUp db T r) = .ok x
      rw [ascend] at h
      cases hr : nextUp db T r with
      | none => exact ⟨none, by rw [Db.climb]⟩
      | some r' =>
        rw [hr] at h
        exact ih h

theorem exists_chain {n : Nat} {r : RoleRow} (h : ascend (nextUp db T) n r = none) :
    ∃ x, db.chain T n (some r) = .ok x := by
  induction n generalizing r with
  | zero => cases h
  | succ n ih =>
    rw [ascend] at h
    have habove : ∃ x, db.chain T n (nextUp db T r) = .ok x := by
      cases hr : nextUp db T r with
      | none => exact ⟨[], by rw [Db.chain]⟩
      | some r' =>
        rw [hr] at h
        exact ih h
    obtain ⟨x, hx⟩ := habove
    refine ⟨r :: x, ?_⟩
    rw [Db.chain]
    exact bind_eq_ok.mpr ⟨x, hx, rfl⟩

/-- **In a hierarchy without cycles the walks end.** -/
theorem walksEnd_of_acyclic (h : db.AcyclicRoles) : db.WalksEnd := by
  have hnodes : ∀ T a b, nextUp db T a = some b → b ∈ db.roles.rows :=
    fun _ _ _ hab => (nextUp_eq_some hab).1
  have hends : ∀ T r, ascend (nextUp db T) (db.roles.rows.length + 1) r = none :=
    fun T r => ascend_ends (acyclic_nextUp h) (hnodes T) (Nat.lt_succ_self _) r
  constructor
  · intro p c T
    have hclimb : ∃ x, db.climb T c (db.roles.rows.length + 1)
        (db.roles.selectOne fun r => r.id = p) = .ok x := by
      cases db.roles.selectOne fun r => r.id = p with
      | none => exact ⟨none, by rw [Db.climb]⟩
      | some r => exact exists_climb (hends T r)
    obtain ⟨x, hx⟩ := hclimb
    exact ⟨x, bind_eq_ok.mpr ⟨x, hx, rfl⟩⟩
  · intro T id
    have hchain : ∃ x, db.chain T (db.roles.rows.length + 1)
        ((db.roleIn T id).bind fun r => r.parentRoleId.bind (db.roleIn T)) = .ok x := by
      cases (db.roleIn T id).bind fun r => r.parentRoleId.bind (db.roleIn T) with
      | none => exact ⟨[], by rw [Db.chain]⟩
      | some r => exact exists_chain (hends T r)
    obtain ⟨x, hx⟩ := hchain
    exact ⟨_, bind_eq_ok.mpr ⟨x, hx, rfl⟩⟩

end Walks

/-! ### Overtaken moves -/

section Runs

variable {ι : Type} [DecidableEq ι] {w : World} {s₀ : State}

/-- The request that moves a role below a new parent. -/
abbrev moveBelow (p roleId : Uuid) (tenantId : String) : Request :=
  .sql (.roles (.setParent (some p) roleId tenantId))

/-- **A move is overtaken** when, since its walk, another move has put the child at or above the new
parent, and it still is when the row is updated. -/
def Overtaken (older : List (Move authrs ι State)) (m : Move authrs ι State) : Prop :=
  ∃ p roleId T, m.event.request = moveBelow p roleId T ∧ m.before.db.AtOrAbove p roleId ∧
    ∃ since walk before, older = since ++ walk :: before ∧ walk.who = m.who ∧
      walk.event = did (.roles (.cycleProbe p roleId T)) none ∧
      ∃ x ∈ since, ∃ p' roleId' T', x.event.request = moveBelow p' roleId' T' ∧
        x.before.db.AtOrAbove p roleId' ∧ x.before.db.AtOrAbove p' roleId

/-- No move of the record was overtaken. -/
def NoneOvertaken (log : List (Move authrs ι State)) : Prop :=
  ∀ newer m older, log = newer ++ m :: older → ¬ Overtaken older m

/-- A new role is above no other one. -/
theorem Db.AtOrAbove.eq_of_new {db : Db} (hs : db.HierarchySound) {p id : Uuid}
    (hnew : ∀ r ∈ db.roles, r.id ≠ id) (h : db.AtOrAbove p id) : p = id := by
  rcases h.cases_tail with heq | ⟨b, -, r, hr, -, hid⟩
  · exact heq.symm
  · obtain ⟨q, hq, hqid, -⟩ := hs.parents r hr id hid
    exact absurd hqid (hnew q hq)

theorem runCalls_snoc (calls : ι → RepoCall) (l : List (ι ⊕ Nat)) (x : ι ⊕ Nat) :
    runCalls w s₀ calls (l ++ [x]) = (runCalls w s₀ calls l).play (handle w) State.tick x :=
  Config.run_snoc _ _ _ l x

theorem runCalls_draws_mono (calls : ι → RepoCall) {l l' : List (ι ⊕ Nat)} (h : l' <+: l) :
    (runCalls w s₀ calls l').state.draws ≤ (runCalls w s₀ calls l).state.draws := by
  obtain ⟨l'', rfl⟩ := h
  induction l'' using List.reverseRecOn with
  | nil => rw [List.append_nil]
  | append_singleton l'' x ih =>
    refine Nat.le_trans ih ?_
    rw [← List.append_assoc, runCalls_snoc]
    rcases Config.play_cases (handle w) State.tick (runCalls w s₀ calls (l' ++ l'')) x with
      ⟨i, q, k, -, -, hp⟩ | ⟨i, -, hp⟩ | ⟨t, -, hp⟩
    · rw [hp]
      exact handle_draws_le w _ q
    · rw [hp]
    · rw [hp]
      exact Nat.le_refl _

/-- An insert of a role uses its id, which no row had. -/
theorem insert_used {db db' : Db} {env : SqlEnv} {id : Uuid} {tenantId name uid : String}
    {parent : Option Uuid} {r : Nat}
    (h : (Sql.roles (.insert id tenantId name uid parent)).exec env db = .ok (r, db')) :
    (∀ x ∈ db.roles, x.id ≠ id) ∧
      ∀ r', usedUuid ⟨.sql (.roles (.insert id tenantId name uid parent)), r'⟩ = some id := by
  obtain ⟨row, t, htenant, hid, -, hins, -, -, -⟩ := insertRole_ok h
  refine ⟨fun x hx => hid ▸ Table.insert?_fresh hins hx, fun r' => ?_⟩
  have hused : usedUuid ⟨.sql (.roles (.insert id tenantId name uid parent)), r'⟩ =
      ((Except.toOption (varcharReq 255 tenantId)).map fun T => (Securable.role, id, T)).map
        fun x => x.2.1 := rfl
  rw [hused, htenant]
  rfl

/-- The statements that add an edge. -/
theorem Sql.addsParent_cases {q : Sql} {a b : Uuid} (h : q.addsParent = some (a, b)) :
    (∃ T, q = .roles (.setParent (some b) a T)) ∨
      ∃ T name uid, q = .roles (.insert a T name uid (some b)) := by
  cases q with
  | roles x =>
    cases x with
    | insert id T name uid parent =>
      cases parent with
      | none => cases h
      | some p =>
        cases h
        exact .inr ⟨T, name, uid, rfl⟩
    | setParent parent id T =>
      cases parent with
      | none => cases h
      | some p =>
        cases h
        exact .inl ⟨T, rfl⟩
    | _ => cases h
  | _ => cases h

/-- A request that puts one role above another adds an edge between what is above the one and
what the other is above. -/
theorem adds_of_flip {s : State} {q : Request} {p c : Uuid} (hnot : ¬ s.db.AtOrAbove p c)
    (hthen : (handle w q s).2.db.AtOrAbove p c) :
    ∃ x r a b, q = .sql x ∧ x.exec (s.sqlEnv w) s.db = .ok (r, (handle w q s).2.db) ∧
      x.addsParent = some (a, b) ∧ s.db.AtOrAbove p a ∧ s.db.AtOrAbove b c := by
  rcases handle_db (w := w) (s := s) q with hdb | ⟨x, r, rfl, hx⟩
  · rw [hdb] at hthen
    exact absurd hthen hnot
  · cases hadds : x.addsParent with
    | none =>
      have hsub : ∀ a b, (handle w (.sql x) s).2.db.ParentOf a b → s.db.ParentOf a b :=
        fun _ _ => Sql.exec_addsNone hx hadds
      exact absurd (ReflTransGen.mono hsub _ _ hthen) hnot
    | some ab =>
      obtain ⟨a, b⟩ := ab
      obtain hold | ⟨hpa, hbc⟩ := (Sql.exec_addsEdge hx hadds).above hthen
      · exact absurd hold hnot
      · exact ⟨x, r, a, b, rfl, hx, hadds, hpa, hbc⟩

/-- What a recorded walk without a find says of the state it ran in. -/
theorem not_above_of_walk (hh : s₀.db.HierarchySound) (calls : ι → RepoCall)
    {l : List (ι ⊕ Nat)} (hw : FreshUuids w s₀ (runCalls w s₀ calls l).state.draws) {i : ι}
    {p roleId : Uuid} {T : String} (hne : p ≠ roleId)
    (hfound : Found .role p T (own i (runCalls w s₀ calls l).log))
    (hreply : (Except.ok none : Except SqlError (Option Uuid)) =
      (handle w (.sql (.roles (.cycleProbe p roleId T))) (runCalls w s₀ calls l).state).1) :
    ¬ (runCalls w s₀ calls l).state.db.AtOrAbove p roleId := by
  have ht := run_tracked w s₀ calls l
  have hs : (runCalls w s₀ calls l).state.db.HierarchySound :=
    run_guarded Sql.exec_hierarchySound w hh calls l hw
  have hp : (runCalls w s₀ calls l).state.db.roleOnlyIn T p := fun x hx hid =>
    ht.traced.onlyIn (k := .role) ht.careful ht.drawn hw hfound ⟨x, hx, hid, rfl⟩
  cases hq : (RoleStmt.cycleProbe p roleId T).exec (runCalls w s₀ calls l).state.db with
  | error e =>
    simp only [handle, Sql.exec, hq] at hreply
    cases hreply
  | ok r =>
    obtain ⟨x, db'⟩ := r
    simp only [handle, Sql.exec, hq] at hreply
    cases hreply
    exact not_above_of_probe hs hp hne hq

/-- **A new role is not above a role that came before it.** -/
theorem not_above_of_insert (hh : s₀.db.HierarchySound) (calls : ι → RepoCall)
    (l : List (ι ⊕ Nat)) (hw : FreshUuids w s₀ (runCalls w s₀ calls l).state.draws)
    {newer older : List (Move authrs ι State)} {x : Move authrs ι State}
    (hl : (runCalls w s₀ calls l).log = newer ++ x :: older) {id p : Uuid}
    {tenantId name uid T : String} {parent : Option Uuid} {r : Nat} {db' : Db}
    (hx : x.event.request = .sql (.roles (.insert id tenantId name uid parent)))
    (hexec : (Sql.roles (.insert id tenantId name uid parent)).exec (x.before.sqlEnv w) x.before.db =
      .ok (r, db'))
    (hp : Origin s₀ older .role p T) : ¬ x.before.db.AtOrAbove p id := by
  intro habove
  obtain ⟨l', -, hpre, -, hstate, -⟩ := Config.run_log_split l hl
  have hs : x.before.db.HierarchySound := hstate ▸
    run_guarded Sql.exec_hierarchySound w hh calls l' (hw.mono (runCalls_draws_mono calls hpre))
  obtain ⟨hnew, hused⟩ := insert_used hexec
  obtain rfl : p = id := habove.eq_of_new hs hnew
  have ht := run_tracked w s₀ calls l
  refine hp.not_used hl ht.careful ht.drawn hw ?_
  obtain ⟨_, ⟨_, _⟩, _⟩ := x
  cases hx
  exact hused _

/-- **A move that would close a cycle was overtaken**: its walk did not find the child, and only
another move can have put it above the new parent since. -/
theorem overtaken_of_above (hh : s₀.db.HierarchySound) (calls : ι → RepoCall)
    (l : List (ι ⊕ Nat)) (hw : FreshUuids w s₀ (runCalls w s₀ calls l).state.draws) {i : ι}
    {p roleId : Uuid} {T : String} {r : Reply (moveBelow p roleId T)}
    (hc : Careful (own i (runCalls w s₀ calls l).log) ⟨moveBelow p roleId T, r⟩)
    (habove : (runCalls w s₀ calls l).state.db.AtOrAbove p roleId) :
    Overtaken (runCalls w s₀ calls l).log
      ⟨i, ⟨moveBelow p roleId T, r⟩, (runCalls w s₀ calls l).state⟩ := by
  obtain ⟨hfound, hne, hhead⟩ := hc p rfl
  obtain ⟨rest, hown⟩ := List.head?_eq_some_iff.mp hhead
  obtain ⟨since, ⟨j, _, _⟩, before, hlog, rfl, rfl, hrest⟩ :=
    own_split (hown.trans (List.nil_append _).symm)
  -- the parent was found before the walk
  have hfound' : Found .role p T (own j before) := by
    obtain ⟨e, he, hfe⟩ := hfound
    rw [hown] at he
    rcases List.mem_cons.mp he with rfl | he
    · cases hfe
    · exact ⟨e, hrest ▸ he, hfe⟩
  -- at the walk, the child was not above the new parent
  obtain ⟨l', -, hpre, rfl, rfl, -, hreply⟩ := Config.run_log_split l hlog
  have hmissed : ¬ (runCalls w s₀ calls l').state.db.AtOrAbove p roleId :=
    not_above_of_walk hh calls (hw.mono (runCalls_draws_mono calls hpre)) hne hfound' hreply
  have hkept : (handle w (.sql (.roles (.cycleProbe p roleId T)))
      (runCalls w s₀ calls l').state).2.db = (runCalls w s₀ calls l').state.db := by
    rcases handle_db (w := w) (s := (runCalls w s₀ calls l').state)
      (.sql (.roles (.cycleProbe p roleId T))) with hdb | ⟨x, r, hx, hexec⟩
    · exact hdb
    · cases hx
      obtain ⟨_, -, heq⟩ := bind_eq_ok.mp hexec
      exact (congrArg Prod.snd (Except.ok.inj heq)).symm
  rw [← hkept] at hmissed
  have htick : ∀ (d : Nat) (s : State), (s.tick d).db.AtOrAbove p roleId →
      s.db.AtOrAbove p roleId := fun _ _ h => h
  -- so that a move since has put it there
  obtain ⟨newer, x, between, rfl, hnot, hthen⟩ :=
    Config.run_flip (P := fun s : State => s.db.AtOrAbove p roleId) htick l hlog hmissed habove
  obtain ⟨y, r', a, b, hx, hexec, hadds, hpa, hbr⟩ := adds_of_flip hnot hthen
  refine ⟨p, roleId, T, rfl, habove, newer ++ x :: between, _, _, hlog, rfl, rfl, x, by simp, ?_⟩
  rcases Sql.addsParent_cases hadds with ⟨T', rfl⟩ | ⟨T', name, uid, rfl⟩
  · exact ⟨b, a, T', hx, hpa, hbr⟩
  · -- a new role was not below the parent, and is not the parent, which was found before
    rw [List.append_assoc, List.cons_append] at hlog
    have horigin := (run_tracked w s₀ calls l').traced.origin hfound'
    exact absurd hpa (not_above_of_insert hh calls l hw hlog hx hexec (horigin.mono fun m hm =>
      List.mem_append_right _ (List.mem_cons_of_mem _ hm)))

/-- **Every move of a run keeps the hierarchy acyclic**, unless it was overtaken. -/
theorem acyclic_move (hh : s₀.db.HierarchySound) (calls : ι → RepoCall) (l : List (ι ⊕ Nat))
    (hw : FreshUuids w s₀ (runCalls w s₀ calls l).state.draws)
    {newer older : List (Move authrs ι State)} {m : Move authrs ι State}
    (hl : (runCalls w s₀ calls l).log = newer ++ m :: older)
    (hacyclic : m.before.db.AcyclicRoles) (hnot : ¬ Overtaken older m) :
    (handle w m.event.request m.before).2.db.AcyclicRoles := by
  have hc : Careful (own m.who older) m.event :=
    (run_tracked w s₀ calls l).careful newer m older hl
  obtain ⟨l', -, hpre, rfl, hstate, -⟩ := Config.run_log_split l hl
  rcases handle_db (w := w) (s := m.before) m.event.request with hdb | ⟨x, r, hq, hx⟩
  · rw [hdb]
    exact hacyclic
  · cases hadds : x.addsParent with
    | none => exact hacyclic.mono fun _ _ => Sql.exec_addsNone hx hadds
    | some ab =>
      obtain ⟨a, b⟩ := ab
      refine (Sql.exec_addsEdge hx hadds).acyclic hacyclic fun hba => ?_
      rcases Sql.addsParent_cases hadds with ⟨T, rfl⟩ | ⟨T, name, uid, rfl⟩
      · obtain ⟨i, ⟨q, reply⟩, before⟩ := m
        cases hq
        cases hstate
        exact hnot (overtaken_of_above hh calls l' (hw.mono (runCalls_draws_mono calls hpre)) hc hba)
      · -- the parent of a new role was found before the id was drawn
        have hparent : Found .role b T (own m.who (runCalls w s₀ calls l').log) := by
          obtain ⟨i, ⟨q, reply⟩, before⟩ := m
          cases hq
          exact hc.2 b rfl
        exact not_above_of_insert hh calls l hw hl hq hx
          ((run_tracked w s₀ calls l').traced.origin hparent) hba

/-- **The hierarchy stays acyclic** in every run in which no move is overtaken, and the walks along
it end. -/
theorem hierarchy_acyclic (w : World) (s₀ : State) (hacyclic : s₀.db.AcyclicRoles)
    (hh : s₀.db.HierarchySound) (calls : ι → RepoCall) (l : List (ι ⊕ Nat))
    (hfresh : FreshUuids w s₀ (runCalls w s₀ calls l).state.draws)
    (hnone : NoneOvertaken (runCalls w s₀ calls l).log) :
    (runCalls w s₀ calls l).state.db.AcyclicRoles ∧
      (runCalls w s₀ calls l).state.db.WalksEnd := by
  suffices h : (runCalls w s₀ calls l).state.db.AcyclicRoles from ⟨h, walksEnd_of_acyclic h⟩
  induction l using List.reverseRecOn with
  | nil => exact hacyclic
  | append_singleton l x ih =>
    have hw := hfresh.mono (runCalls_draws_mono calls (List.prefix_append l [x]))
    have hsnoc : runCalls w s₀ calls (l ++ [x]) = _ := runCalls_snoc calls l x
    rcases Config.play_cases (handle w) State.tick (runCalls w s₀ calls l) x with
      ⟨i, q, k, rfl, -, hp⟩ | ⟨i, rfl, hp⟩ | ⟨d, rfl, hp⟩
    · have hlog : (runCalls w s₀ calls (l ++ [.inl i])).log = [] ++
          ⟨i, ⟨q, (handle w q (runCalls w s₀ calls l).state).1⟩, (runCalls w s₀ calls l).state⟩ ::
            (runCalls w s₀ calls l).log := congrArg Config.log (hsnoc.trans hp)
      have hstate : (runCalls w s₀ calls (l ++ [.inl i])).state =
        (handle w q (runCalls w s₀ calls l).state).2 := congrArg Config.state (hsnoc.trans hp)
      have hold : NoneOvertaken (runCalls w s₀ calls l).log := fun newer m older hl =>
        hnone (_ :: newer) m older (hlog.trans (congrArg (List.cons _) hl))
      rw [hstate]
      exact acyclic_move hh calls _ hfresh hlog (ih hw hold) (hnone [] _ _ hlog)
    · rw [hsnoc, hp] at hnone ⊢
      exact ih hw hnone
    · rw [hsnoc, hp] at hnone ⊢
      exact ih hw hnone

end Runs

/-! ### Runs without an overtaken move, and with one -/

/-- The parents have greater ids. -/
def Db.upward (db : Db) : Bool :=
  db.roles.rows.all fun r => r.parentRoleId.all fun p => decide (r.id < p)

/-- A request that moves a role below another one moves it below one with a greater id. -/
def movesUp : Request → Bool
  | .sql (.roles (.setParent (some p) roleId _)) => decide (roleId < p)
  | _ => true

theorem Db.le_of_atOrAbove {db : Db} (h : db.upward = true) {p id : Uuid}
    (hp : db.AtOrAbove p id) : p ≤ id := by
  induction hp with
  | refl => exact BitVec.le_refl p
  | tail _ hparent ih =>
    obtain ⟨r, hr, rfl, hq⟩ := hparent
    have hparents := List.all_eq_true.mp h r hr
    rw [hq] at hparents
    have hlt := of_decide_eq_true hparents
    bv_omega

/-- **Moves below greater ids are not overtaken**, when the parents have greater ids all along. -/
theorem noneOvertaken_of_upward {ι : Type} {log : List (Move authrs ι State)}
    (h : ∀ m ∈ log, m.before.db.upward = true ∧ movesUp m.event.request = true) :
    NoneOvertaken log := by
  rintro newer m older rfl ⟨p, roleId, T, hm, habove, -⟩
  obtain ⟨hupward, hmoves⟩ := h m (List.mem_append_right _ List.mem_cons_self)
  rw [hm] at hmoves
  have hlt : roleId < p := of_decide_eq_true hmoves
  have hle := Db.le_of_atOrAbove hupward habove
  bv_omega

section NoParents

variable {db : Db} (h : ∀ r ∈ db.roles.rows, r.parentRoleId = none)

include h

theorem not_parentOf_of_none (a b : Uuid) : ¬ db.ParentOf a b := by
  rintro ⟨r, hr, -, hb⟩
  rw [h r hr] at hb
  cases hb

theorem acyclic_of_none : db.AcyclicRoles := by
  intro a ha
  obtain ⟨b, hab, -⟩ := TransGen.head'_iff.mp ha
  exact not_parentOf_of_none h a b hab

theorem hierarchySound_of_none (hfits : ∀ r ∈ db.roles, varcharReq 255 r.tenantId = .ok r.tenantId) :
    db.HierarchySound where
  fits := hfits
  parents r hr p hp := absurd ⟨r, hr, rfl, hp⟩ (not_parentOf_of_none h r.id p)

end NoParents

/-- A tenant with three roles, none above another. -/
def threeRoles : State :=
  .ofDb { Db.empty with
    tenants := .single ⟨"acme", "Acme", "active", 0⟩
    roles := ⟨[⟨1, "acme", "A", "a", none⟩, ⟨2, "acme", "B", "b", none⟩, ⟨3, "acme", "C", "c", none⟩],
      by decide⟩ } 0

theorem threeRoles_noParents : ∀ r ∈ threeRoles.db.roles.rows, r.parentRoleId = none := by decide

/-- One call moves `A` below `B`, and another one `B` below `C`. -/
def climb : Bool → RepoCall
  | false => .setParent "acme" 1 (some 2)
  | true => .setParent "acme" 2 (some 3)

/-- The second call walks and updates between the walk of the first one and its update. -/
def climbInside : List (Bool ⊕ Nat) :=
  List.replicate 3 (Sum.inl false) ++ List.replicate 4 (Sum.inl true) ++ [Sum.inl false]

theorem hierarchy_acyclic_climbInside :
    (runCalls .offline threeRoles climb climbInside).state.db.AcyclicRoles ∧
      (runCalls .offline threeRoles climb climbInside).state.db.WalksEnd := by
  have hdraws : (runCalls .offline threeRoles climb climbInside).state.draws = 0 := by decide +kernel
  have hfits : ∀ r ∈ threeRoles.db.roles, varcharReq 255 r.tenantId = .ok r.tenantId := by
    intro r hr
    have htenant : ∀ r ∈ threeRoles.db.roles.rows, r.tenantId = "acme" := by decide
    rw [htenant r hr]
    rfl
  refine hierarchy_acyclic .offline threeRoles (acyclic_of_none threeRoles_noParents)
    (hierarchySound_of_none threeRoles_noParents hfits) climb climbInside ?_
    (noneOvertaken_of_upward (by decide +kernel))
  rw [hdraws]
  exact ⟨fun m hm => absurd hm.2 (Nat.not_lt_zero m), fun m hm => absurd hm.2 (Nat.not_lt_zero m)⟩

theorem twoRoles_nodup : ([⟨1, "acme", "A", "a", none⟩, ⟨2, "acme", "B", "b", none⟩].map
    RoleRow.id).Nodup := by
  decide

/-- A tenant with two roles, neither above the other. -/
def twoRoles : State :=
  .ofDb { Db.empty with
    tenants := .single ⟨"acme", "Acme", "active", 0⟩
    roles := ⟨[⟨1, "acme", "A", "a", none⟩, ⟨2, "acme", "B", "b", none⟩], twoRoles_nodup⟩ } 0

theorem twoRoles_noParents : ∀ r ∈ twoRoles.db.roles.rows, r.parentRoleId = none := by decide

theorem twoRoles_acyclic : twoRoles.db.AcyclicRoles := acyclic_of_none twoRoles_noParents

theorem twoRoles_sound : twoRoles.db.HierarchySound := by
  refine hierarchySound_of_none twoRoles_noParents fun r hr => ?_
  rcases List.mem_pair.mp hr with rfl | rfl <;> rfl

/-- One call makes `B` the parent of `A`, and another one `A` the parent of `B`. -/
def cross : Bool → RepoCall
  | false => .setParent "acme" 1 (some 2)
  | true => .setParent "acme" 2 (some 1)

/-- Both calls walk before either updates. -/
def walksFirst : List (Bool ⊕ Nat) :=
  [.inl false, .inl false, .inl false, .inl true, .inl true, .inl true, .inl false, .inl true]

/-- Each walk misses the other move, and the two updates close a cycle on which the walks never
end. -/
theorem roles_cross : twoRoles.db.AcyclicRoles ∧ twoRoles.db.HierarchySound ∧
    ¬ (runCalls .offline twoRoles cross walksFirst).state.db.AcyclicRoles ∧
    ¬ (runCalls .offline twoRoles cross walksFirst).state.db.WalksEnd := by
  refine ⟨twoRoles_acyclic, twoRoles_sound, fun h => ?_, ?_⟩
  · have hrows : (runCalls .offline twoRoles cross walksFirst).state.db.roles.rows =
        [⟨1, "acme", "A", "a", some 2⟩, ⟨2, "acme", "B", "b", some 1⟩] := by decide +kernel
    have hup : (runCalls .offline twoRoles cross walksFirst).state.db.ParentOf 1 2 :=
      ⟨⟨1, "acme", "A", "a", some 2⟩, Table.mem_def.mpr (hrows ▸ List.mem_cons_self), rfl, rfl⟩
    have hdown : (runCalls .offline twoRoles cross walksFirst).state.db.ParentOf 2 1 :=
      ⟨⟨2, "acme", "B", "b", some 1⟩,
        Table.mem_def.mpr (hrows ▸ List.mem_cons_of_mem _ List.mem_cons_self), rfl, rfl⟩
    exact h 1 (TransGen.tail (.single hup) hdown)
  · rintro ⟨-, hends⟩
    obtain ⟨x, hx⟩ := hends "acme" 1
    have hcanceled : ((RoleStmt.getRoleAncestors "acme" 1).exec
        (runCalls .offline twoRoles cross walksFirst).state.db).toOption.isNone = true := by
      decide +kernel
    rw [hx] at hcanceled
    cases hcanceled

end Authrs
