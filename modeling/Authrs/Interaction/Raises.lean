import Authrs.Interaction.Program

/-!
# The failures of a program

With which failures a program can end, whatever the replies it receives. A failure that a part
cannot raise comes from another part, and the parts before that one have returned.

## Main definitions

* `Program.Raises E p`: every failure of `p` is in `E`

## Main results

* `Program.Raises.bind`: a composed program raises what its parts raise
* `Program.Raises.exec`: the program run alone
* `Program.exec_bind_eq_error`: from which part a failure comes
-/

namespace Interaction

namespace Program

variable {I : Interface} {ε δ α β σ : Type} {E E' : ε → Prop}

/-- Every failure of `p` is in `E`, whatever the replies. -/
def Raises (E : ε → Prop) : Program I ε α → Prop
  | .pure _ => True
  | .throw e => E e
  | .ask _ k => ∀ r, (k r).Raises E

@[simp] theorem raises_pure (a : α) : (pure a : Program I ε α).Raises E := trivial

@[simp] theorem raises_throw (e : ε) : (throw e : Program I ε α).Raises E ↔ E e := Iff.rfl

@[simp] theorem raises_request (q : I.Request) : (request q : Program I ε _).Raises E :=
  fun _ => trivial

/-- **A composed program raises what its parts raise.** -/
theorem Raises.bind {p : Program I ε α} {f : α → Program I ε β} (hp : p.Raises E)
    (hf : ∀ a, (f a).Raises E) : (p.bind f).Raises E := by
  induction p with
  | pure a => exact hf a
  | throw e => exact hp
  | ask q k ih => exact fun r => ih r (hp r)

theorem raises_okOr (o : Option α) {e : ε} (he : E e) : (okOr o e : Program I ε α).Raises E := by
  cases o with
  | none => exact he
  | some a => trivial

theorem raises_ensure (c : Prop) [Decidable c] {e : ε} (he : E e) :
    (ensure c e : Program I ε Unit).Raises E := by
  by_cases hc : c
  · rw [ensure_pos hc]
    trivial
  · rw [ensure_neg hc]
    exact he

theorem raises_ofExcept {o : Except ε α} (ho : ∀ e, o = .error e → E e) :
    (ofExcept o : Program I ε α).Raises E := by
  cases o with
  | ok a => trivial
  | error e => exact ho e rfl

/-- What is recovered is not raised any more. -/
theorem Raises.toExcept {p : Program I ε α} (recoverable : ε → Option δ) (hp : p.Raises E) :
    (p.toExcept recoverable).Raises fun e => E e ∧ recoverable e = none := by
  induction p with
  | pure a => trivial
  | throw e =>
    rw [Program.toExcept]
    cases he : recoverable e with
    | some d => trivial
    | none => exact ⟨hp, he⟩
  | ask q k ih => exact fun r => ih r (hp r)

theorem Raises.mono {p : Program I ε α} (hp : p.Raises E) (hE : ∀ e, E e → E' e) :
    p.Raises E' := by
  induction p with
  | pure a => trivial
  | throw e => exact hE e hp
  | ask q k ih => exact fun r => ih r (hp r)

variable {H : Handler I σ} {s s' : σ} {e : ε}

/-- The failure of a program run alone is one that it raises. -/
theorem Raises.exec {p : Program I ε α} (hp : p.Raises E) (h : p.exec H s = (.error e, s')) :
    E e := by
  induction p generalizing s with
  | pure a => cases h
  | throw e' =>
    obtain ⟨he, -⟩ := Prod.mk.inj h
    cases he
    exact hp
  | ask q k ih => exact ih _ (hp _) h

/-- **A failure comes from the first part, or from the second** when the first one returns. -/
theorem exec_bind_eq_error {p : Program I ε α} {f : α → Program I ε β} :
    (p.bind f).exec H s = (.error e, s') ↔
      p.exec H s = (.error e, s') ∨
        ∃ a s₁, p.exec H s = (.ok a, s₁) ∧ (f a).exec H s₁ = (.error e, s') := by
  rw [exec_bind]
  rcases p.exec H s with ⟨e' | a, s₁⟩
  · simp
  · constructor
    · intro h
      exact .inr ⟨a, s₁, rfl, h⟩
    · rintro (h | ⟨_, _, h, h'⟩)
      · cases (Prod.mk.inj h).1
      · cases h
        exact h'

/-- A failure that the first part does not raise. -/
theorem Raises.exec_bind {p : Program I ε α} {f : α → Program I ε β} (hp : p.Raises E)
    (he : ¬E e) (h : (p.bind f).exec H s = (.error e, s')) :
    ∃ a s₁, p.exec H s = (.ok a, s₁) ∧ (f a).exec H s₁ = (.error e, s') := by
  rcases exec_bind_eq_error.mp h with h | h
  · exact absurd (hp.exec h) he
  · exact h

end Program

end Interaction
