import Authrs.Interaction.Condition

/-!
# Tickets

A request issues a ticket, and a later one takes it away in the same step in which it looks it up.
So each ticket that is taken was issued before and has been waiting since; and if no ticket is
issued twice, none is taken twice, whoever presents it and in whatever order the requests come.

## Main definitions

* `Tickets`: what a request issues and takes, and what is pending in a state
* `Tickets.Waiting`: a ticket that a record has issued and nobody has taken since
* `Tickets.issued`, `Tickets.taken`: the tickets of a record, newest first

## Main results

* `Tickets.run_taken`: every taken ticket was waiting
* `Tickets.run_taken_nodup`: tickets issued once are taken once
-/

namespace Interaction

/-- What a request issues and takes in a state, and the tickets that are pending. -/
structure Tickets (I : Interface) (κ σ : Type) where
  issues : I.Request → σ → Option κ
  takes : I.Request → σ → Option κ
  pending : σ → κ → Prop

namespace Tickets

variable {I : Interface} {ε α ι κ σ τ : Type} (T : Tickets I κ σ)

/-- How the requests and the surroundings treat the tickets. -/
structure Lawful (H : Handler I σ) (env : τ → σ → σ) : Prop where
  taken : ∀ q s k, T.takes q s = some k → T.pending s k
  stays : ∀ q s k, T.pending (H q s).2 k →
    T.issues q s = some k ∨ (T.pending s k ∧ T.takes q s ≠ some k)
  passes : ∀ t s k, T.pending (env t s) k → T.pending s k

/-- A move issues a ticket. -/
def Issues (m : Move I ι σ) (k : κ) : Prop := T.issues m.event.request m.before = some k

/-- A move takes a ticket. -/
def Takes (m : Move I ι σ) (k : κ) : Prop := T.takes m.event.request m.before = some k

/-- The tickets issued in a record. -/
def issued (log : List (Move I ι σ)) : List κ :=
  log.filterMap fun m => T.issues m.event.request m.before

/-- The tickets taken in a record. -/
def taken (log : List (Move I ι σ)) : List κ :=
  log.filterMap fun m => T.takes m.event.request m.before

/-- **A waiting ticket** has been issued, and nobody has taken it since. -/
def Waiting (log : List (Move I ι σ)) (k : κ) : Prop :=
  ∃ newer m older, log = newer ++ m :: older ∧ T.Issues m k ∧ ∀ x ∈ newer, ¬ T.Takes x k

variable {T} {log : List (Move I ι σ)} {m : Move I ι σ} {k : κ}

theorem Waiting.cons (h : T.Waiting log k) (hm : ¬ T.Takes m k) : T.Waiting (m :: log) k := by
  obtain ⟨newer, x, older, rfl, hissue, hkept⟩ := h
  exact ⟨m :: newer, x, older, rfl, hissue, List.forall_mem_cons.mpr ⟨hm, hkept⟩⟩

theorem mem_issued (hm : m ∈ log) (h : T.Issues m k) : k ∈ T.issued log :=
  List.mem_filterMap.mpr ⟨m, hm, h⟩

theorem issued_cons (h : T.Issues m k) : T.issued (m :: log) = k :: T.issued log :=
  List.filterMap_cons_some (f := fun m : Move I ι σ => T.issues m.event.request m.before) h

theorem taken_cons (h : T.Takes m k) : T.taken (m :: log) = k :: T.taken log :=
  List.filterMap_cons_some (f := fun m : Move I ι σ => T.takes m.event.request m.before) h

theorem taken_cons_of_none (h : T.takes m.event.request m.before = none) :
    T.taken (m :: log) = T.taken log :=
  List.filterMap_cons_none (f := fun m : Move I ι σ => T.takes m.event.request m.before) h

/-- The rest of a record has issued no more than the record. -/
theorem issued_sublist {older : List (Move I ι σ)} (h : older <:+ log) :
    (T.issued older).Sublist (T.issued log) :=
  h.sublist.filterMap _

/-- **Tickets issued once are taken once**, if each was waiting when it was taken. -/
theorem nodup_taken (hwaiting : EachMove (fun older m => ∀ k, T.Takes m k → T.Waiting older k) log)
    (hissued : (T.issued log).Nodup) : (T.taken log).Nodup := by
  induction log with
  | nil => exact List.nodup_nil
  | cons m log ih =>
    obtain ⟨hm, hrest⟩ := eachMove_cons.mp hwaiting
    have hnodup : (T.issued log).Nodup := hissued.sublist (issued_sublist (List.suffix_cons m log))
    cases hk : T.takes m.event.request m.before with
    | none =>
      rw [taken_cons_of_none hk]
      exact ih hrest hnodup
    | some k =>
      rw [taken_cons hk, List.nodup_cons]
      refine ⟨fun hmem => ?_, ih hrest hnodup⟩
      -- An earlier move took the ticket, and it has been issued since then.
      obtain ⟨newer, x, older, rfl, hissue, hkept⟩ := hm k hk
      obtain ⟨y, hy, htake⟩ := List.mem_filterMap.mp hmem
      have hyold : y ∈ x :: older := by
        rcases List.mem_append.mp hy with hnew | hold
        · exact absurd htake (hkept y hnew)
        · exact hold
      obtain ⟨between, rest, hsplit⟩ := List.append_of_mem hyold
      have hrecord : newer ++ x :: older = (newer ++ between) ++ y :: rest := by
        rw [hsplit, List.append_assoc]
      -- But that earlier move took a ticket that had been issued before it.
      obtain ⟨newer', z, older', hz, hissue', -⟩ := hrest _ y rest hrecord k htake
      have hzold : z ∈ older := by
        have hmemz : z ∈ rest := by simp [hz]
        cases between with
        | nil =>
          obtain ⟨-, rfl⟩ := List.cons.inj hsplit
          exact hmemz
        | cons b between =>
          obtain ⟨-, rfl⟩ := List.cons.inj hsplit
          exact List.mem_append_right _ (List.mem_cons_of_mem _ hmemz)
      have htwice := hnodup.sublist (issued_sublist (List.suffix_append newer (x :: older)))
      rw [issued_cons hissue, List.nodup_cons] at htwice
      exact htwice.1 (mem_issued hzold hissue')

/-! ### Runs -/

variable [DecidableEq ι] {H : Handler I σ} {env : τ → σ → σ} {s : σ} {p : ι → Program I ε α}

/-- What is pending has been issued in the run, and nobody has taken it since. -/
theorem run_pending (hT : T.Lawful H env) (hstart : ∀ k, ¬ T.pending s k) (l : List (ι ⊕ τ)) :
    ∀ k, T.pending ((Config.start s p).run H env l).state k →
      T.Waiting ((Config.start s p).run H env l).log k := by
  refine Config.run_induction (J := fun c => ∀ k, T.pending c.state k → T.Waiting c.log k) ?_ ?_ ?_ l
  · intro k hk
    exact absurd hk (hstart k)
  · intro c i q f ih _ k hk
    rcases hT.stays q c.state k hk with hissue | ⟨hpending, hkept⟩
    · exact ⟨[], _, c.log, rfl, hissue, by simp⟩
    · exact (ih k hpending).cons hkept
  · intro c t ih k hk
    exact ih k (hT.passes t c.state k hk)

/-- **Every taken ticket was waiting.** -/
theorem run_taken (hT : T.Lawful H env) (hstart : ∀ k, ¬ T.pending s k) (l : List (ι ⊕ τ)) :
    EachMove (fun older m => ∀ k, T.Takes m k → T.Waiting older k)
      ((Config.start s p).run H env l).log := by
  intro newer m older hlog k htake
  obtain ⟨l', -, -, rfl, hstate, -⟩ := Config.run_log_split l hlog
  refine run_pending hT hstart l' k ?_
  rw [hstate]
  exact hT.taken _ _ k htake

/-- **Tickets issued once are taken once**, in every run. -/
theorem run_taken_nodup (hT : T.Lawful H env) (hstart : ∀ k, ¬ T.pending s k) (l : List (ι ⊕ τ))
    (hissued : (T.issued ((Config.start s p).run H env l).log).Nodup) :
    (T.taken ((Config.start s p).run H env l).log).Nodup :=
  nodup_taken (run_taken hT hstart l) hissued

end Tickets

end Interaction
