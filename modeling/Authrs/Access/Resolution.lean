import Authrs.Access.Hierarchy
import Authrs.Base.AsciiCase

/-!
# Role identifiers are unambiguous

A role is looked up by its uid or its name in one query. The uid of a role is the slug of its name
and the slug of a slug is the slug itself, so a name that is the uid of another role has that uid as
its own; uids are unique in a tenant.

## Main definitions

* `World.LowercaseLaws`: what the slug relies on
* `RepoCall.OnRoles`: the calls that create, move and delete roles
* `Db.Slugged T`: the uids of a tenant's roles are the slugs of their names, each once

## Main results

* `toUid_toUid`: the slug of a slug is the slug
* `Slugged.exec`: a statement keeps the uids
* `roles_resolve`: an identifier has at most one role, and the lookups find its uid
-/

namespace Authrs

open Interaction Relational

/-! ### Slugs -/

/-- A character is its own lowercase. -/
def World.IsLower (w : World) (c : Char) : Prop :=
  w.toLowercase (String.ofList [c]) = String.ofList [c]

/-- **What the slug relies on**: lowering leaves lowercase characters as they are and yields nothing
else, and neither `_` nor a whitespace character is alphanumeric. -/
structure World.LowercaseLaws (w : World) : Prop where
  lower_eq : ∀ s : String, (∀ c ∈ s.toList, w.IsLower c) → w.toLowercase s = s
  lower_isLower : ∀ s : String, ∀ c ∈ (w.toLowercase s).toList, w.IsLower c
  underscore_isLower : w.IsLower '_'
  underscore : w.isAlphanumeric '_' = false
  whitespace : ∀ c, isWhitespace c = true → w.isAlphanumeric c = false

section Slugs

variable {w : World} {prev : Bool} {l l' : List Char}

/-- Whether the last character, after which the loop is, became an underscore. -/
def afterChars (w : World) (prev : Bool) (l : List Char) : Bool :=
  match l.getLast? with
  | some c => !w.isAlphanumeric c
  | none => prev

theorem afterChars_cons (c : Char) :
    afterChars w prev (c :: l) = afterChars w (!w.isAlphanumeric c) l := by
  unfold afterChars
  cases l with
  | nil => rfl
  | cons b l =>
    rw [List.getLast?_cons_cons]
    cases h : (b :: l).getLast? with
    | none => simp at h
    | some x => rfl

/-- The loop over a text is the loop over its parts. -/
theorem uidChars_append :
    uidChars w prev (l ++ l') = uidChars w prev l ++ uidChars w (afterChars w prev l) l' := by
  induction l generalizing prev with
  | nil => rfl
  | cons c l ih =>
    rw [afterChars_cons, List.cons_append, uidChars, uidChars]
    split
    · rename_i hc
      rw [ih, hc]
      rfl
    · rename_i hc
      rw [Bool.not_eq_true] at hc
      split
      · rw [ih, hc]
        rfl
      · rw [ih, hc]
        rfl

theorem length_uidChars_le : (uidChars w prev l).length ≤ l.length := by
  induction l generalizing prev with
  | nil => exact Nat.le_refl _
  | cons c l ih =>
    rw [uidChars]
    have htrue := @ih true
    have hfalse := @ih false
    split
    · simp only [List.length_cons]
      omega
    · split
      · simp only [List.length_cons]
        omega
      · simp only [List.length_cons]
        omega

/-- The characters of a slug are alphanumeric characters of the text, and underscores. -/
theorem mem_uidChars {c : Char} (h : c ∈ uidChars w prev l) :
    c = '_' ∨ (c ∈ l ∧ w.isAlphanumeric c = true) := by
  induction l generalizing prev with
  | nil => cases h
  | cons b l ih =>
    rw [uidChars] at h
    split at h
    · rename_i hb
      rcases List.mem_cons.mp h with rfl | h
      · exact .inr ⟨List.mem_cons_self, hb⟩
      · exact (ih h).imp_right fun h => ⟨List.mem_cons_of_mem _ h.1, h.2⟩
    · split at h
      · exact (ih h).imp_right fun h => ⟨List.mem_cons_of_mem _ h.1, h.2⟩
      · rcases List.mem_cons.mp h with rfl | h
        · exact .inl rfl
        · exact (ih h).imp_right fun h => ⟨List.mem_cons_of_mem _ h.1, h.2⟩

section Laws

variable (hw : w.LowercaseLaws)

include hw

/-- The loop leaves what it has made as it is. -/
theorem uidChars_uidChars : uidChars w prev (uidChars w prev l) = uidChars w prev l := by
  induction l generalizing prev with
  | nil => rfl
  | cons c l ih =>
    by_cases hc : w.isAlphanumeric c = true
    · rw [uidChars, if_pos hc, uidChars, if_pos hc, ih]
    · cases prev with
      | true => rw [uidChars, if_neg hc, if_pos rfl, ih]
      | false =>
        rw [uidChars, if_neg hc, if_neg Bool.false_ne_true, uidChars, hw.underscore,
          if_neg Bool.false_ne_true, if_neg Bool.false_ne_true, ih]

omit hw in
/-- The loop leaves the start of what it leaves as it is. -/
theorem uidChars_initial (h : uidChars w prev (l ++ l') = l ++ l') : uidChars w prev l = l := by
  rw [uidChars_append] at h
  have hlength := congrArg List.length h
  rw [List.length_append, List.length_append] at hlength
  have hle : (uidChars w prev l).length ≤ l.length := length_uidChars_le
  have hle' : (uidChars w (afterChars w prev l) l').length ≤ l'.length := length_uidChars_le
  exact (List.append_inj h (by omega)).1

/-- What the loop makes has no two underscores in a row. -/
theorem no_double_underscore (h : uidChars w prev l = l) : ∀ l', l ≠ l' ++ ['_', '_'] := by
  rintro l' rfl
  have happend : l' ++ ['_', '_'] = (l' ++ ['_']) ++ ['_'] := by simp
  have hafter : afterChars w prev (l' ++ ['_']) = true := by
    unfold afterChars
    rw [List.getLast?_concat]
    change (!w.isAlphanumeric '_') = true
    rw [hw.underscore]
    rfl
  rw [happend, uidChars_append, hafter] at h
  have hnone : uidChars w true ['_'] = [] := by
    rw [uidChars, hw.underscore, if_neg Bool.false_ne_true, if_pos rfl, uidChars]
  have hlength := congrArg List.length h
  have hle : (uidChars w prev (l' ++ ['_'])).length ≤ (l' ++ ['_']).length := length_uidChars_le
  rw [hnone, List.append_nil, List.length_append] at hlength
  simp only [List.length_cons, List.length_nil] at hlength
  omega

/-- The characters of a slug, before a trailing underscore is stripped. -/
abbrev slugChars (w : World) (name : String) : List Char :=
  uidChars w true (w.toLowercase (trim name)).toList

omit hw in
theorem toList_toUid (name : String) :
    (toUid w name).toList =
      if (slugChars w name).getLast? = some '_' then (slugChars w name).dropLast
      else slugChars w name :=
  String.toList_ofList

omit hw in
/-- A slug with what was stripped. -/
theorem exists_slugChars (name : String) : ∃ l, slugChars w name = (toUid w name).toList ++ l := by
  rw [toList_toUid]
  split
  · rename_i hlast
    refine ⟨['_'], ?_⟩
    obtain ⟨l, hl⟩ := List.getLast?_eq_some_iff.mp hlast
    rw [hl, List.dropLast_concat]
  · exact ⟨[], (List.append_nil _).symm⟩

/-- The characters of a slug are lowercase, and not blank. -/
theorem mem_toUid {name : String} {c : Char} (h : c ∈ (toUid w name).toList) :
    w.IsLower c ∧ isWhitespace c = false := by
  obtain ⟨l, hl⟩ := exists_slugChars (w := w) name
  have hc : c ∈ slugChars w name := hl ▸ List.mem_append_left l h
  rcases mem_uidChars hc with rfl | ⟨hmem, halpha⟩
  · exact ⟨hw.underscore_isLower, by decide⟩
  · refine ⟨hw.lower_isLower _ c hmem, ?_⟩
    cases hblank : isWhitespace c with
    | false => rfl
    | true => rw [hw.whitespace c hblank] at halpha; cases halpha

/-- A slug does not end with an underscore. -/
theorem getLast?_toUid (name : String) : (toUid w name).toList.getLast? ≠ some '_' := by
  intro hlast
  obtain ⟨l, hl⟩ := List.getLast?_eq_some_iff.mp hlast
  rw [toList_toUid] at hl
  have hsame : uidChars w true (slugChars w name) = slugChars w name := uidChars_uidChars hw
  split at hl
  · rename_i hend
    obtain ⟨l', hl'⟩ := List.getLast?_eq_some_iff.mp hend
    rw [hl', List.dropLast_concat] at hl
    subst hl
    apply no_double_underscore hw hsame l
    rw [hl', List.append_assoc]
    rfl
  · rename_i hend
    exact hend (List.getLast?_eq_some_iff.mpr ⟨l, hl⟩)

/-- **The slug of a slug is the slug.** -/
theorem toUid_toUid (name : String) : toUid w (toUid w name) = toUid w name := by
  have htrim : trim (toUid w name) = toUid w name :=
    trim_eq_self (fun c hc => (mem_toUid hw (List.mem_of_head? hc)).2)
      fun c hc => (mem_toUid hw (List.mem_of_getLast? hc)).2
  have hlower : w.toLowercase (toUid w name) = toUid w name :=
    hw.lower_eq _ fun c hc => (mem_toUid hw hc).1
  have hchars : slugChars w (toUid w name) = (toUid w name).toList := by
    obtain ⟨l, hl⟩ := exists_slugChars (w := w) name
    unfold slugChars
    rw [htrim, hlower]
    have hwhole : uidChars w true ((toUid w name).toList ++ l) = (toUid w name).toList ++ l := by
      rw [← hl]
      exact uidChars_uidChars hw
    exact uidChars_initial hwhole
  apply String.toList_inj.mp
  rw [toList_toUid, hchars, if_neg (getLast?_toUid hw name)]

end Laws

end Slugs

/-! ### Calls on roles -/

/-- The calls that create, move and delete roles. -/
def RepoCall.OnRoles : RepoCall → Prop
  | createRole .. => True
  | setParent .. => True
  | deleteRole .. => True
  | _ => False

/-- A role is inserted under a trimmed name, with its slug. -/
def Slugging (w : World) (q : Request) : Prop :=
  ∀ id tenantId name uid parent, q = .sql (.roles (.insert id tenantId name uid parent)) →
    (∃ given, name = trim given) ∧ uid = toUid w name

section Asking

variable {w : World} {tenantId : String}

/-- A statement that inserts no role. -/
theorem slugging_of_ne {q : RoleStmt}
    (h : ∀ id tenantId name uid parent, q ≠ .insert id tenantId name uid parent) :
    Slugging w (.sql (.roles q)) := by
  intro id tenantId name uid parent hq
  cases hq
  exact absurd rfl (h _ _ _ _ _)

theorem validateParentOpt_slugging (parentRoleId childRoleId : Option Uuid) :
    (RolesRepo.validateParentOpt tenantId parentRoleId childRoleId).Asks (Slugging w) := by
  cases parentRoleId with
  | none => exact trivial
  | some parent =>
    refine (asks_query (slugging_of_ne (by simp))).bind fun _ => (asks_ensure _ _).bind fun _ => ?_
    cases childRoleId with
    | none => exact trivial
    | some child =>
      exact (asks_ensure _ _).bind fun _ =>
        (asks_query (slugging_of_ne (by simp))).bind fun _ => asks_ensure _ _

theorem create_slugging (name : String) (parentRoleId : Option Uuid) :
    (RolesRepo.create w tenantId name parentRoleId).Asks (Slugging w) := by
  refine (asks_ensure _ _).bind fun _ => (asks_query (slugging_of_ne (by simp))).bind fun _ =>
    (asks_ensure _ _).bind fun _ => (validateParentOpt_slugging _ _).bind fun _ =>
      Program.Asks.bind ⟨?_, fun _ => trivial⟩ fun id =>
        Program.Asks.bind ((asks_query ?_).bind fun _ => trivial) fun _ => trivial
  · intro id tenantId name uid parent hq
    cases hq
  · intro id tenantId name uid parent hq
    cases hq
    exact ⟨⟨_, rfl⟩, rfl⟩

theorem RepoCall.run_slugging {call : RepoCall} (hcall : call.OnRoles) :
    (call.run w).Asks (Slugging w) := by
  cases call with
  | createRole => exact (create_slugging _ _).bind fun _ => trivial
  | setParent =>
    refine (asks_query (slugging_of_ne (by simp))).bind fun _ => (asks_ensure _ _).bind fun _ =>
      (validateParentOpt_slugging _ _).bind fun _ => ?_
    exact (asks_query (slugging_of_ne (by simp))).bind fun _ => trivial
  | deleteRole =>
    exact Program.Asks.bind ((asks_query (slugging_of_ne (by simp))).bind fun _ => trivial) fun _ => trivial
  | _ => exact hcall.elim

end Asking

/-! ### Rows -/

section Rows

variable {w : World} {db db' : Db} {T : String}

/-- **The uids of a tenant's roles** are the slugs of their names, each once. -/
structure Db.Slugged (db : Db) (w : World) (T : String) : Prop where
  slug : ∀ r ∈ db.roles, r.tenantId = T → r.uid = toUid w r.name
  unique : ∀ a ∈ db.roles, ∀ b ∈ db.roles, a.tenantId = T → b.tenantId = T → a.uid = b.uid → a = b

/-- The row that an insert adds. -/
theorem insertRole_row {id : Uuid} {tenantId name uid : String} {parent : Option Uuid} {n : Nat}
    (h : insertRole db id tenantId name uid parent = .ok (n, db')) :
    ∃ row : RoleRow, varcharReq 255 name = .ok row.name ∧ varcharReq 255 uid = .ok row.uid ∧
      (∀ y ∈ db.roles, y.tenantId = row.tenantId → y.uid ≠ row.uid) ∧
      ∀ x ∈ db'.roles, x = row ∨ x ∈ db.roles := by
  unfold insertRole at h
  simp only [bind_eq_ok] at h
  obtain ⟨tenantId', -, name', hname, uid', huid, h⟩ := h
  split at h
  · cases h
  · rename_i t hins
    split at h
    · cases h
    · rename_i hunique
      split at h
      · cases h
      · split at h
        · cases h
        · cases h
          refine ⟨⟨id, tenantId', name', uid', parent⟩, hname, huid, ?_,
            fun x hx => (Table.mem_insert? hins).mp hx⟩
          intro y hy htenant heq
          apply hunique
          exact List.any_eq_true.mpr ⟨y, hy, by simp [htenant, heq]⟩

/-- The other statements change at most the parents. -/
theorem RoleStmt.exec_row {q : RoleStmt} {r : q.Rows} (h : q.exec db = .ok (r, db'))
    (hq : ∀ id tenantId name uid parent, q ≠ .insert id tenantId name uid parent) {x : RoleRow}
    (hx : x ∈ db'.roles) : ∃ y ∈ db.roles, x = { y with parentRoleId := x.parentRoleId } := by
  have hsame : db'.roles = db.roles → ∃ y ∈ db.roles, x = { y with parentRoleId := x.parentRoleId } :=
    fun hroles => ⟨x, hroles ▸ hx, rfl⟩
  cases q with
  | insert => exact absurd rfl (hq _ _ _ _ _)
  | setParent =>
    obtain ⟨-, rfl⟩ := setParent_ok h
    obtain ⟨y, hy, rfl⟩ := Db.mem_reparent.mp hx
    refine ⟨y, hy, ?_⟩
    split
    · rfl
    · rfl
  | delete =>
    simp only [exec] at h
    split at h
    · cases h
      exact ⟨x, hx, rfl⟩
    · cases h
      obtain ⟨y, hy, -, rfl⟩ := Db.mem_dropRole.mp hx
      refine ⟨y, hy, ?_⟩
      unfold RoleRow.orphaned
      split
      · rfl
      · rfl
  | assignRoleToUser =>
    apply hsame
    obtain rfl | ⟨_, -, -, -, rfl⟩ := insertUserRole_ok h
    · rfl
    · rfl
  | cycleProbe =>
    obtain ⟨_, -, h⟩ := bind_eq_ok.mp h
    cases h
    exact hsame rfl
  | getRoleAncestors =>
    obtain ⟨_, -, h⟩ := bind_eq_ok.mp h
    cases h
    exact hsame rfl
  | _ =>
    cases h
    exact hsame rfl

/-- Rows that come from rows with the same name and uid. -/
theorem Db.Slugged.of_rows (h : db.Slugged w T)
    (hrows : ∀ x ∈ db'.roles, ∃ y ∈ db.roles, x = { y with parentRoleId := x.parentRoleId }) :
    db'.Slugged w T where
  slug x hx htenant := by
    obtain ⟨y, hy, heq⟩ := hrows x hx
    rw [heq] at htenant ⊢
    exact h.slug y hy htenant
  unique a ha b hb hta htb huid := by
    obtain ⟨y, hy, heqa⟩ := hrows a ha
    obtain ⟨z, hz, heqb⟩ := hrows b hb
    apply Table.eq_of_key_eq ha hb
    rw [heqa] at hta huid
    rw [heqb] at htb huid
    have hyz : y = z := h.unique y hy z hz hta htb huid
    rw [heqa, heqb, hyz]

variable (hw : w.LowercaseLaws)

include hw

/-- A new role whose uid is the slug of its name. -/
theorem Db.Slugged.insert (h : db.Slugged w T) {id : Uuid} {tenantId given : String}
    {parent : Option Uuid} {n : Nat}
    (hins : insertRole db id tenantId (trim given) (toUid w (trim given)) parent = .ok (n, db')) :
    db'.Slugged w T := by
  obtain ⟨row, hname, huid, hfree, hrows⟩ := insertRole_row hins
  have hblank : isWhitespace ' ' = true := by decide
  -- neither the name nor the uid ends with a blank
  have hrowname : row.name = trim given := by
    refine varchar_of_last (varcharReq_ok hname) fun c hc heq => ?_
    have hnot := getLast?_trim given c hc
    rw [heq, hblank] at hnot
    cases hnot
  have hrowuid : row.uid = toUid w (trim given) := by
    refine varchar_of_last (varcharReq_ok huid) fun c hc heq => ?_
    have hnot := (mem_toUid hw (List.mem_of_getLast? hc)).2
    rw [heq, hblank] at hnot
    cases hnot
  constructor
  · intro x hx htenant
    rcases hrows x hx with rfl | hx
    · rw [hrowuid, hrowname]
    · exact h.slug x hx htenant
  · intro a ha b hb hta htb heq
    rcases hrows a ha with rfl | ha
    · rcases hrows b hb with rfl | hb
      · rfl
      · exact absurd heq.symm (hfree b hb (htb.trans hta.symm))
    · rcases hrows b hb with rfl | hb
      · exact absurd heq (hfree a ha (hta.trans htb.symm))
      · exact h.unique a ha b hb hta htb heq

/-- **A statement of the calls keeps the uids.** -/
theorem Db.Slugged.exec (h : db.Slugged w T) {env : SqlEnv} {q : Sql} {r : q.Rows}
    (hexec : q.exec env db = .ok (r, db')) (hq : Slugging w (.sql q)) : db'.Slugged w T := by
  have hsame : db'.roles = db.roles → db'.Slugged w T := fun hroles =>
    h.of_rows fun x hx => ⟨x, hroles ▸ hx, rfl⟩
  cases q with
  | roles q =>
    by_cases hins : ∃ id tenantId name uid parent, q = .insert id tenantId name uid parent
    · obtain ⟨id, tenantId, name, uid, parent, rfl⟩ := hins
      obtain ⟨⟨given, rfl⟩, rfl⟩ := hq _ _ _ _ _ rfl
      exact h.insert hw hexec
    · refine h.of_rows fun x hx => RoleStmt.exec_row hexec ?_ hx
      intro id tenantId name uid parent heq
      exact hins ⟨id, tenantId, name, uid, parent, heq⟩
  | users => exact hsame (by rw [MembershipStmt.exec_frame hexec])
  | groups => exact hsame (by rw [GroupStmt.exec_frame hexec])
  | permissions => exact hsame (by rw [PermissionStmt.exec_frame hexec])
  | identities => exact hsame (by rw [IdentityStmt.exec_frame hexec])
  | challenges => exact hsame (by rw [ChallengeStmt.exec_frame hexec])
  | oauth => exact hsame (by rw [OauthStmt.exec_frame hexec])
  | tokens => exact hsame (by rw [TokenStmt.exec_frame hexec])
  | sessions => exact hsame (by rw [SessionStmt.exec_frame hexec])
  | kv => exact hsame (by rw [KvStmt.exec_eq hexec])
  | otps => exact hsame (by rw [OtpStmt.exec_frame hexec])

/-- **An identifier has at most one role**: a name that is the uid of a role has that uid. -/
theorem Db.Slugged.at_most_one (h : db.Slugged w T) {identifier : String} {a b : RoleRow}
    (ha : a ∈ db.roles) (hb : b ∈ db.roles) (hta : a.tenantId = T) (htb : b.tenantId = T)
    (hma : a.uid = identifier ∨ a.name = identifier)
    (hmb : b.uid = identifier ∨ b.name = identifier) : a = b := by
  have huid : ∀ r ∈ db.roles, r.tenantId = T → r.uid = identifier ∨ r.name = identifier →
      r.uid = toUid w identifier := by
    rintro r hr htenant (rfl | rfl)
    · rw [h.slug r hr htenant, toUid_toUid hw]
    · exact h.slug r hr htenant
  refine h.unique a ha b hb hta htb ?_
  rw [huid a ha hta hma, huid b hb htb hmb]

end Rows

/-! ### Runs -/

section Runs

variable {w : World} {s₀ : State} {T : String} {ι : Type} [DecidableEq ι]

/-- The uids along a run of calls on roles. -/
theorem run_slugged (hw : w.LowercaseLaws) (hempty : ∀ r ∈ s₀.db.roles, r.tenantId ≠ T)
    (calls : ι → RepoCall) (hcalls : ∀ i, (calls i).OnRoles) (l : List (ι ⊕ Nat)) :
    (runCalls w s₀ calls l).state.db.Slugged w T := by
  refine Config.run_invariant (J := fun (s : State) _ => s.db.Slugged w T)
    (C := fun _ : ι => .ofGuarantee fun _ (e : Event authrs) => Slugging w e.request) (Q := fun _ _ _ => True)
    (fun i => ?_) (fun _ _ _ => trivial) ?_ ?_ ?_ l
  · refine ((RepoCall.run_slugging (hcalls i)).keeps ?_).weaken fun _ _ _ => trivial
    intro h e he
    exact he
  · exact ⟨fun r hr htenant => absurd htenant (hempty r hr),
      fun a ha b hb hta => absurd hta (hempty a ha)⟩
  · intro s log i q h hq
    rcases handle_db (w := w) (s := s) q with hdb | ⟨x, r, rfl, hx⟩
    · rw [hdb]
      exact h
    · exact h.exec hw hx hq
  · intro s log t h
    exact h

/-- A role has an identifier: as its uid, or as its name. -/
def RoleRow.Named (r : RoleRow) (identifier : String) : Prop :=
  r.uid = identifier ∨ r.name = identifier

/-- **Role identifiers are unambiguous.** In every state that calls on roles reach from one in which a
tenant has no role, the uids of the tenant's roles are the slugs of their names, each once; an
identifier has at most one role, and the lookups return the uid of that role. -/
theorem roles_resolve (hw : w.LowercaseLaws) (hempty : ∀ r ∈ s₀.db.roles, r.tenantId ≠ T)
    (calls : ι → RepoCall) (hcalls : ∀ i, (calls i).OnRoles) (l : List (ι ⊕ Nat)) (s : State)
    (hs : s = (runCalls w s₀ calls l).state) :
    (∀ r ∈ s.db.roles, r.tenantId = T → r.uid = toUid w r.name) ∧
      (∀ a ∈ s.db.roles, ∀ b ∈ s.db.roles, a.tenantId = T → b.tenantId = T → a.uid = b.uid → a = b) ∧
      ∀ identifier,
        (∀ a ∈ s.db.roles, ∀ b ∈ s.db.roles, a.tenantId = T → b.tenantId = T →
          a.Named identifier → b.Named identifier → a = b) ∧
        (∀ r ∈ s.db.roles, r.tenantId = T → r.Named identifier →
          (RolesRepo.resolveRoleUid T identifier).exec (handle w) s = (.ok (some r.uid), s) ∧
          (PermissionsRepo.resolveRoleUid T identifier).exec (handle w) s = (.ok (some r.uid), s)) ∧
        ((∀ r ∈ s.db.roles, r.tenantId = T → ¬ r.Named identifier) →
          (RolesRepo.resolveRoleUid T identifier).exec (handle w) s = (.ok none, s) ∧
          (PermissionsRepo.resolveRoleUid T identifier).exec (handle w) s = (.ok none, s)) := by
  have hslugged : s.db.Slugged w T := hs ▸ run_slugged hw hempty calls hcalls l
  have hlookup : ∀ identifier,
      (query (.roles (.resolveRoleUid T identifier))).exec (handle w) s =
        (.ok ((s.db.roles.selectOne fun r =>
          r.tenantId = T && (r.uid = identifier || r.name = identifier)).map (·.uid)), s) :=
    fun _ => exec_query_read rfl rfl
  have hchosen : ∀ (r : RoleRow) (identifier : String),
      (r.tenantId = T && (r.uid = identifier || r.name = identifier)) = true ↔
        r.tenantId = T ∧ r.Named identifier := by
    intro r identifier
    unfold RoleRow.Named
    simp
  -- Both repositories send the same statement, so one look-up answers for both.
  refine ⟨hslugged.slug, hslugged.unique, fun identifier => ⟨?_, ?_, ?_⟩⟩
  · intro a ha b hb hta htb hna hnb
    exact hslugged.at_most_one hw ha hb hta htb hna hnb
  · intro r hr htenant hnamed
    unfold RolesRepo.resolveRoleUid PermissionsRepo.resolveRoleUid
    rw [hlookup]
    cases hsel : s.db.roles.selectOne fun r =>
        r.tenantId = T && (r.uid = identifier || r.name = identifier) with
    | none =>
      have hnone := List.find?_eq_none.mp hsel r hr
      exact absurd ((hchosen r identifier).mpr ⟨htenant, hnamed⟩) hnone
    | some x =>
      have hpos := Table.selectOne_pos hsel
      obtain ⟨htx, hnx⟩ := (hchosen x identifier).mp hpos
      rw [hslugged.at_most_one hw (Table.selectOne_mem hsel) hr htx htenant hnx hnamed]
      exact ⟨rfl, rfl⟩
  · intro hno
    unfold RolesRepo.resolveRoleUid PermissionsRepo.resolveRoleUid
    rw [hlookup]
    have hnone : s.db.roles.selectOne (fun r =>
        r.tenantId = T && (r.uid = identifier || r.name = identifier)) = none := by
      refine List.find?_eq_none.mpr fun x hx hpos => ?_
      obtain ⟨htx, hnx⟩ := (hchosen x identifier).mp hpos
      exact hno x hx htx hnx
    rw [hnone]
    exact ⟨rfl, rfl⟩

end Runs

/-! ### A deployment with ASCII letters -/

theorem offline_isLower {c : Char} : World.offline.IsLower c ↔ c.toLower = c := by
  change String.ofList ((String.ofList [c]).toList.map Char.toLower) = String.ofList [c] ↔ _
  rw [String.toList_ofList, String.ofList_inj, List.map_singleton, List.cons.injEq, and_iff_left rfl]

theorem offline_lowercaseLaws : World.offline.LowercaseLaws where
  lower_eq := by
    intro s hs
    have hmap : s.toList.map Char.toLower = s.toList := by
      rw [List.map_congr_left fun c hc => offline_isLower.mp (hs c hc), List.map_id']
    change String.ofList (s.toList.map Char.toLower) = s
    rw [hmap, String.ofList_toList]
  lower_isLower := by
    intro s c hc
    change c ∈ (String.ofList (s.toList.map Char.toLower)).toList at hc
    rw [String.toList_ofList] at hc
    obtain ⟨b, -, rfl⟩ := List.mem_map.mp hc
    exact offline_isLower.mpr (toLower_toLower b)
  underscore_isLower := offline_isLower.mpr (by decide)
  underscore := by decide
  whitespace := by
    intro c hc
    change c.isAlphanum = false
    rw [Bool.eq_false_iff]
    intro halpha
    rw [isWhitespace_of_isAlphanum halpha] at hc
    cases hc

/-- A tenant without roles. -/
def acmeAlone : State :=
  .ofDb { Db.empty with tenants := .single ⟨"acme", "Acme", "active", 0⟩ } 0

/-- Two roles with one slug. -/
def twoCreates : Bool → RepoCall
  | false => .createRole "acme" "Admin User" none
  | true => .createRole "acme" "admin_user" none

/-- The two calls, one after the other. -/
def oneThenOther : List (Bool ⊕ Nat) :=
  List.replicate 4 (Sum.inl false) ++ List.replicate 4 (Sum.inl true)

theorem roles_resolve_twoCreates :
    ((runCalls .offline acmeAlone twoCreates oneThenOther).state.db.roles.rows.map RoleRow.uid) =
        ["admin_user"] ∧
      ∀ a ∈ (runCalls .offline acmeAlone twoCreates oneThenOther).state.db.roles,
        ∀ b ∈ (runCalls .offline acmeAlone twoCreates oneThenOther).state.db.roles,
          a.tenantId = "acme" → b.tenantId = "acme" →
            a.Named "admin_user" → b.Named "admin_user" → a = b := by
  refine ⟨by decide +kernel, ?_⟩
  have hcalls : ∀ i, (twoCreates i).OnRoles := by
    intro i
    cases i with
    | false => trivial
    | true => trivial
  exact ((roles_resolve offline_lowercaseLaws (fun r hr => by cases hr) twoCreates hcalls oneThenOther
    _ rfl).2.2 "admin_user").1

end Authrs
