import Authrs.Interaction.Concurrent

/-!
# What has held since a move

Programs that run side by side share a state. What a move has made true, and no request and no act of
the surroundings makes false, is true of the state that every later move starts from. A clock that
nobody turns back is an instance: the moves of a record are in the order of their times.

## Main results

* `run_since`: what a move has made true holds when a later one is made
* `run_log_ordered`: the record is in the order of a clock
-/

namespace Interaction

namespace Config

variable {I : Interface} {ε α ι σ τ : Type} [DecidableEq ι]
variable {H : Handler I σ} {env : τ → σ → σ} {s : σ} {p : ι → Program I ε α}

/-- **What a move has made true**, and nothing makes false, holds of the state at the end. -/
theorem run_state_since {P : σ → Prop} (hmove : ∀ q s, P s → P (H q s).2)
    (henv : ∀ t s, P s → P (env t s)) (l : List (ι ⊕ τ)) {newer older : List (Move I ι σ)}
    {x : Move I ι σ} (hl : ((start s p).run H env l).log = newer ++ x :: older)
    (hx : P (H x.event.request x.before).2) : P ((start s p).run H env l).state := by
  have hstart : ∀ newer older, (start s p).log = newer ++ x :: older → P (start s p).state := by
    intro newer older hl
    simp [start] at hl
  refine run_induction (J := fun c => ∀ newer older, c.log = newer ++ x :: older → P c.state)
    hstart ?_ ?_ l newer older hl
  · intro c i q k ih _ newer older hl
    cases newer with
    | nil =>
      obtain ⟨rfl, -⟩ := List.cons.inj hl
      exact hx
    | cons m newer => exact hmove q c.state (ih newer older (List.cons.inj hl).2)
  · intro c t ih newer older hl
    exact henv t c.state (ih newer older hl)

/-- **What a move has made true holds when a later one is made.** -/
theorem run_since {P : σ → Prop} (hmove : ∀ q s, P s → P (H q s).2)
    (henv : ∀ t s, P s → P (env t s)) (l : List (ι ⊕ τ)) {newer between older : List (Move I ι σ)}
    {m x : Move I ι σ}
    (hl : ((start s p).run H env l).log = newer ++ m :: (between ++ x :: older))
    (hx : P (H x.event.request x.before).2) : P m.before := by
  obtain ⟨l', k, -, hlog, hstate, -⟩ := run_log_split l hl
  rw [← hstate]
  exact run_state_since hmove henv l' hlog hx

/-! ### Clocks -/

variable (clock : σ → Int)

/-- **The record is in the order of a clock** that nobody turns back. -/
theorem run_log_ordered (hmove : ∀ q s, clock s ≤ clock (H q s).2)
    (henv : ∀ t s, clock s ≤ clock (env t s)) (l : List (ι ⊕ τ))
    {newer older : List (Move I ι σ)} {m x : Move I ι σ}
    (hl : ((start s p).run H env l).log = newer ++ m :: older) (hx : x ∈ older) :
    clock x.before ≤ clock m.before := by
  obtain ⟨between, older, rfl⟩ := List.append_of_mem hx
  exact run_since (P := fun s => clock x.before ≤ clock s)
    (fun q s h => Int.le_trans h (hmove q s)) (fun t s h => Int.le_trans h (henv t s)) l hl (hmove _ _)

end Config

end Interaction
