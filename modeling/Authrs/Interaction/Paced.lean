import Authrs.Interaction.Contract

/-!
# Programs that take time

Between two exchanges of a program the surroundings may move on: a clock advances, say. A handler is
paced by such moves when one of them happens before each exchange, as long as there are any left.
What every request and every move keeps is kept by the program.

## Main definitions

* `Handler.paced pass`: a handler, with the moves `pass` before its exchanges

## Main results

* `exec_paced_nil`: without moves the program runs as before
* `Asks.paced_invariant`: what requests and moves keep is kept by a program
-/

namespace Interaction

variable {I : Interface} {ε α σ τ : Type}

/-- **A handler, paced**: the next move happens before each exchange. -/
def Handler.paced (H : Handler I σ) (pass : τ → σ → σ) : Handler I (σ × List τ)
  | q, (s, []) => ((H q s).1, ((H q s).2, []))
  | q, (s, d :: ds) => ((H q (pass d s)).1, ((H q (pass d s)).2, ds))

namespace Program

variable (H : Handler I σ) (pass : τ → σ → σ)

/-- **Without moves** the program runs as before. -/
theorem exec_paced_nil (p : Program I ε α) (s : σ) :
    p.exec (H.paced pass) (s, []) = ((p.exec H s).1, ((p.exec H s).2, [])) := by
  induction p generalizing s with
  | pure a => rfl
  | throw e => rfl
  | ask q k ih => exact ih _ _

variable {H pass}

/-- An exchange takes place after a move, or at once. -/
theorem paced_cases (q : I.Request) (x : σ × List τ) :
    ∃ s ds, (s = x.1 ∨ ∃ d, s = pass d x.1) ∧ H.paced pass q x = ((H q s).1, ((H q s).2, ds)) := by
  obtain ⟨s, ds⟩ := x
  cases ds with
  | nil => exact ⟨s, [], .inl rfl, rfl⟩
  | cons d ds => exact ⟨pass d s, ds, .inr ⟨d, rfl⟩, rfl⟩

/-- **What requests and moves keep** is kept by a program. -/
theorem Asks.paced_invariant {S : I.Request → Prop} {J : σ → Prop}
    (hrequest : ∀ q, S q → ∀ s, J s → J (H q s).2) (hpass : ∀ d s, J s → J (pass d s))
    {p : Program I ε α} (hp : p.Asks S) {x : σ × List τ} (hx : J x.1) :
    J (p.exec (H.paced pass) x).2.1 := by
  induction p generalizing x with
  | pure a => exact hx
  | throw e => exact hx
  | ask q k ih =>
    obtain ⟨s, ds, hs, heq⟩ := @paced_cases _ _ _ H pass q x
    have hJ : J s := by
      rcases hs with rfl | ⟨d, rfl⟩
      · exact hx
      · exact hpass d _ hx
    rw [exec_ask, heq]
    exact ih _ (hp.2 _) (hrequest q hp.1 s hJ)

variable {x x' : σ} {H' : Handler I σ}

/-- An option's value is returned in the same state. -/
theorem exec_okOr_eq_ok {o : Option α} {e : ε} {a : α} :
    (okOr o e).exec H' x = (.ok a, x') ↔ o = some a ∧ x = x' := by
  cases o with
  | none => simp [okOr]
  | some b => simp [okOr]

theorem exec_ensure_eq_ok {c : Prop} [Decidable c] {e : ε} :
    (ensure c e : Program I ε Unit).exec H' x = (.ok (), x') ↔ c ∧ x = x' := by
  by_cases hc : c
  · simp [ensure, hc]
  · simp [ensure, hc]

end Program

end Interaction
