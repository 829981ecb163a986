import Authrs.Store.Runs

/-!
# The row of one identity

What any request can do to the row of an identity, said once: the row stays, or it changes as one
of the statements on identities changes it. What is kept by these changes is kept by every
exchange of every run.

## Main definitions

* `IdentityRow.Change now id q r r'`: how a request can change the row of the identity `id`

## Main results

* `handle_identity`: every request changes the row in one of these ways
* `handle_identity_none`: an identity appears with the defaults of a new row
-/

namespace Authrs

open Interaction Relational

/-- **What a request can do to the row of the identity `id`**, at an instant. -/
inductive IdentityRow.Change (now : Time) (id : Uuid) :
    Request → IdentityRow → IdentityRow → Prop
  | same (q : Request) (r : IdentityRow) : Change now id q r r
  | password (h : String) (r : IdentityRow) :
    Change now id (.sql (.identities (.updatePassword id h))) r (r.withPassword now h)
  | forcePasswordChange (b : Bool) (r : IdentityRow) :
    Change now id (.sql (.identities (.setForcePasswordChange id b))) r
      (r.withForcePasswordChange now b)
  | failedAttempt (lockUntil : Option Time) (r : IdentityRow) (h : r.failedAttempts < maxInt) :
    Change now id (.sql (.identities (.incrementFailedAttempts id lockUntil))) r
      (r.withFailedAttempt now lockUntil)
  | clearedAttempts (r : IdentityRow) :
    Change now id (.sql (.identities (.clearFailedAttempts id))) r (r.withClearedAttempts now)
  | status (given stored : String) (r : IdentityRow) :
    Change now id (.sql (.identities (.setStatus id given))) r (r.withStatus now stored)
  | pendingSecret (secret : String) (r : IdentityRow) :
    Change now id (.sql (.identities (.setPendingSecret id secret))) r
      (r.withPendingSecret now secret)
  | mfaEnabled (hashes : List String) (r : IdentityRow) :
    Change now id (.sql (.identities (.enable id hashes))) r (r.withMfaEnabled now)
  | mfaDisabled (r : IdentityRow) :
    Change now id (.sql (.identities (.disable id))) r (r.withMfaDisabled now)
  | usedStep (step : Nat) (r : IdentityRow) (h : r.acceptsStep id step = true) :
    Change now id (.sql (.identities (.markStepUsed id step))) r (r.withUsedStep step)

section

variable {w : World} {s : State} {id : Uuid} {r : IdentityRow}

/-- An update by id changes the row of that id, and no other. -/
theorem Db.changed_updateIdentity {now : Time} {q : Request} {db : Db} {id' : Uuid}
    {f : IdentityRow → IdentityRow} {g : ∀ r, (f r).id = r.id} (h : db.identity id = some r)
    (hq : id' = id → IdentityRow.Change now id q r (f r)) :
    ∃ r', (db.updateIdentity id' f g).identity id = some r' ∧
      IdentityRow.Change now id q r r' := by
  have hrow : r.id = id := (Table.selectOne_key.mp h).2
  have hupdated := Table.selectOne_update (p := fun r => decide (r.id = id')) (g := g) h
  by_cases hid : id' = id
  · refine ⟨f r, ?_, hq hid⟩
    rwa [if_pos (by simp [hrow, hid])] at hupdated
  · refine ⟨r, ?_, .same _ _⟩
    rwa [if_neg (by simpa [hrow] using fun heq : id = id' => hid heq.symm)] at hupdated

/-- A successful insert of an identity adds a row with the defaults. -/
theorem insertIdentity_row {env : SqlEnv} {db db' : Db} {i : Identity}
    {email mobile countryCode firstName lastName passwordHash : Option String}
    (h : insertIdentity env db email mobile countryCode firstName lastName passwordHash =
      .ok (i, db')) :
    ∃ e m c f l t,
      db.identities.insert? (IdentityRow.ofHandles env e m c f l passwordHash) = some t ∧
        db' = { db with identities := t } := by
  unfold insertIdentity at h
  simp only [bind_eq_ok] at h
  obtain ⟨email', -, mobile', -, code', -, first', -, last', -, h⟩ := h
  split at h
  · cases h
  · split at h
    · cases h
    · rename_i t ht
      repeat' split at h
      all_goals cases h
      exact ⟨_, _, _, _, _, t, ht, rfl⟩

/-- The row of an identity after a statement on identities that succeeds. -/
theorem IdentityStmt.exec_identity {env : SqlEnv} {db db' : Db} {q : IdentityStmt} {n : q.Rows}
    (h : q.exec env db = .ok (n, db')) (hr : db.identity id = some r) :
    ∃ r', db'.identity id = some r' ∧
      IdentityRow.Change env.now id (.sql (.identities q)) r r' := by
  cases q with
  | getById => cases h; exact ⟨r, hr, .same _ _⟩
  | getByEmail => cases h; exact ⟨r, hr, .same _ _⟩
  | getByMobile => cases h; exact ⟨r, hr, .same _ _⟩
  | existsByEmail => cases h; exact ⟨r, hr, .same _ _⟩
  | existsByMobile => cases h; exact ⟨r, hr, .same _ _⟩
  | countUnusedBackupCodes => cases h; exact ⟨r, hr, .same _ _⟩
  -- A new row has another id, so the row that is looked up stays.
  | create =>
    obtain ⟨row, t, -, -, -, -, hins, rfl⟩ := insertIdentity_ok h
    exact ⟨r, Table.selectOne_insert hins hr, .same _ _⟩
  | updatePassword id' passwordHash =>
    cases h
    exact Db.changed_updateIdentity hr fun hid => hid ▸ .password _ _
  | setForcePasswordChange id' b =>
    cases h
    exact Db.changed_updateIdentity hr fun hid => hid ▸ .forcePasswordChange _ _
  | incrementFailedAttempts id' lockUntil =>
    simp only [exec] at h
    split at h
    · cases h
    · rename_i hmax
      cases h
      refine Db.changed_updateIdentity hr fun hid => hid ▸ .failedAttempt _ _ ?_
      obtain ⟨hmem, hrow⟩ := Table.selectOne_key.mp hr
      -- The statement is refused when the counter of the row is at its bound.
      by_contra hge
      refine hmax (List.any_eq_true.mpr ⟨r, hmem, ?_⟩)
      simp only [hrow, hid, decide_true, Bool.true_and, decide_eq_true_eq]
      omega
  | clearFailedAttempts id' =>
    cases h
    exact Db.changed_updateIdentity hr fun hid => hid ▸ .clearedAttempts _
  | setStatus id' status =>
    obtain ⟨stored, -, h⟩ := bind_eq_ok.mp h
    cases h
    exact Db.changed_updateIdentity hr fun hid => hid ▸ .status _ _ _
  | setPendingSecret id' secret =>
    cases h
    exact Db.changed_updateIdentity hr fun hid => hid ▸ .pendingSecret _ _
  | enable id' hashes =>
    obtain ⟨db₁, htx, h⟩ := bind_eq_ok.mp h
    cases h
    rw [replaceBackupCodesTx_ok htx]
    have hf : ∀ r, (IdentityRow.withMfaEnabled env.now r).id = r.id := fun r => r.withMfaEnabled_id _
    exact Db.changed_updateIdentity (g := hf) hr fun hid => hid ▸ .mfaEnabled _ _
  | disable id' =>
    cases h
    have hf : ∀ r, (IdentityRow.withMfaDisabled env.now r).id = r.id :=
      fun r => r.withMfaDisabled_id _
    exact Db.changed_updateIdentity (g := hf) hr fun hid => hid ▸ .mfaDisabled _
  -- Only this statement has a guard on the row besides its id.
  | markStepUsed id' step =>
    cases h
    have h' := Table.selectOne_update (p := IdentityRow.acceptsStep id' step)
      (g := fun r => r.withUsedStep_id step) hr
    by_cases hacc : r.acceptsStep id' step = true
    · rw [if_pos hacc] at h'
      have hid : id' = id := by
        have hrow : r.id = id := (Table.selectOne_key.mp hr).2
        simp only [IdentityRow.acceptsStep, Bool.and_eq_true, decide_eq_true_eq] at hacc
        exact hacc.1.symm.trans hrow
      subst hid
      exact ⟨_, h', .usedStep _ _ hacc⟩
    · rw [if_neg hacc] at h'
      exact ⟨_, h', .same _ _⟩
  | replaceBackupCodes id' hashes =>
    obtain ⟨db₁, htx, h⟩ := bind_eq_ok.mp h
    cases h
    rw [replaceBackupCodesTx_ok htx]
    exact ⟨r, hr, .same _ _⟩
  | consumeBackupCode id' codeHash =>
    simp only [exec] at h
    split at h <;> cases h <;> exact ⟨r, hr, .same _ _⟩

/-- Where there was no identity, a statement leaves none, or inserts a new row. -/
theorem IdentityStmt.exec_identity_none {env : SqlEnv} {db db' : Db} {q : IdentityStmt}
    {n : q.Rows} (h : q.exec env db = .ok (n, db')) (hr : db.identity id = none) :
    db'.identity id = none ∨
      ∃ env e m c f l p, db'.identity id = some (.ofHandles env e m c f l p) := by
  -- An update makes no rows.
  have hupdate : ∀ (id' : Uuid) (f : IdentityRow → IdentityRow) (hf : ∀ r, (f r).id = r.id),
      (db.updateIdentity id' f hf).identity id = none := by
    intro id' f hf
    exact Table.selectOne_update_none (g := hf) hr
  cases q with
  | create email mobile countryCode firstName lastName passwordHash =>
    obtain ⟨e, m, c, f, l, t, hins, rfl⟩ := insertIdentity_row h
    cases hnew : t.selectOne fun r => r.id = id with
    | none => exact .inl hnew
    | some row =>
      obtain ⟨hmem, hid⟩ := Table.selectOne_key.mp hnew
      rcases (Table.mem_insert? hins).mp hmem with rfl | hold
      · exact .inr ⟨_, _, _, _, _, _, _, hnew⟩
      · exact absurd hid (Table.selectOne_key_eq_none.mp hr row hold)
  | incrementFailedAttempts id' lockUntil =>
    simp only [exec] at h
    split at h
    · cases h
    · cases h
      exact .inl (hupdate _ _ _)
  | setStatus id' status =>
    obtain ⟨stored, -, h⟩ := bind_eq_ok.mp h
    cases h
    exact .inl (hupdate _ _ _)
  | enable id' hashes =>
    obtain ⟨db₁, htx, h⟩ := bind_eq_ok.mp h
    cases h
    rw [replaceBackupCodesTx_ok htx]
    exact .inl (hupdate id' (.withMfaEnabled env.now) fun r => r.withMfaEnabled_id _)
  | markStepUsed id' step =>
    cases h
    exact .inl (Table.selectOne_update_none (g := fun r => r.withUsedStep_id step) hr)
  | replaceBackupCodes id' hashes =>
    obtain ⟨db₁, htx, h⟩ := bind_eq_ok.mp h
    cases h
    rw [replaceBackupCodesTx_ok htx]
    exact .inl hr
  | consumeBackupCode id' codeHash =>
    simp only [exec] at h
    split at h <;> cases h <;> exact .inl hr
  | updatePassword => cases h; exact .inl (hupdate _ _ _)
  | setForcePasswordChange => cases h; exact .inl (hupdate _ _ _)
  | clearFailedAttempts => cases h; exact .inl (hupdate _ _ _)
  | setPendingSecret => cases h; exact .inl (hupdate _ _ _)
  | disable id' =>
    cases h
    exact .inl (hupdate id' (.withMfaDisabled env.now) fun r => r.withMfaDisabled_id _)
  | _ =>
    cases h
    exact .inl hr

/-- A statement of another kind leaves the identities alone. -/
theorem Sql.exec_identity {env : SqlEnv} {db db' : Db} {x : Sql} {n : x.Rows}
    (h : x.exec env db = .ok (n, db')) (hx : ∀ q, x ≠ .identities q) :
    db'.identity id = db.identity id := by
  have hframe := (Sql.exec_frame h).identities hx
  simp only [Db.identity, hframe]

/-- **Every request changes the row of an identity in one of these ways.** -/
theorem handle_identity (q : Request) (hr : s.db.identity id = some r) :
    ∃ r', (handle w q s).2.db.identity id = some r' ∧ IdentityRow.Change s.now id q r r' := by
  rcases handle_db (w := w) (s := s) q with hdb | ⟨x, n, rfl, hx⟩
  · exact ⟨r, by rw [hdb, hr], .same _ _⟩
  · by_cases hq : ∃ y, x = .identities y
    · obtain ⟨y, rfl⟩ := hq
      exact IdentityStmt.exec_identity (q := y) hx hr
    · have hsame : (handle w (.sql x) s).2.db.identity id = s.db.identity id :=
        Sql.exec_identity hx fun y hy => hq ⟨y, hy⟩
      exact ⟨r, hsame.trans hr, .same _ _⟩

/-- An identity appears with the defaults of a new row. -/
theorem handle_identity_none (q : Request) (hr : s.db.identity id = none) :
    (handle w q s).2.db.identity id = none ∨
      ∃ env e m c f l p, (handle w q s).2.db.identity id = some (.ofHandles env e m c f l p) := by
  rcases handle_db (w := w) (s := s) q with hdb | ⟨x, n, rfl, hx⟩
  · exact .inl (by rw [hdb, hr])
  · by_cases hq : ∃ y, x = .identities y
    · obtain ⟨y, rfl⟩ := hq
      exact IdentityStmt.exec_identity_none (q := y) hx hr
    · have hsame : (handle w (.sql x) s).2.db.identity id = s.db.identity id :=
        Sql.exec_identity hx fun y hy => hq ⟨y, hy⟩
      exact .inl (hsame.trans hr)

/-- A failed attempt on a counter that is not at its end. -/
theorem handle_incrementFailedAttempts (lockUntil : Option Time) (hr : s.db.identity id = some r)
    (hmax : r.failedAttempts < maxInt) :
    (handle w (.sql (.identities (.incrementFailedAttempts id lockUntil))) s).2.db.identity id =
      some (r.withFailedAttempt s.now lockUntil) := by
  have hany : (s.db.identities.rows.any fun r => r.id = id && maxInt ≤ r.failedAttempts) = false := by
    refine List.any_eq_false.mpr fun r' hr' => ?_
    intro hboth
    simp only [Bool.and_eq_true, decide_eq_true_eq] at hboth
    obtain ⟨hmem, hid⟩ := Relational.Table.selectOne_key.mp hr
    obtain rfl := Relational.Table.eq_of_key_eq hr' hmem (hboth.1.trans hid.symm)
    omega
  simp only [handle, State.afterSql, Sql.exec, IdentityStmt.exec, hany]
  exact Db.identity_updateIdentity hr

end

end Authrs
