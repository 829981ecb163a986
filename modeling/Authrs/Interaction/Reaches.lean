import Authrs.Interaction.Contract

/-!
# Requests that a run comes to

Whether a program run alone makes a request of some kind. A part that never makes one only decides
whether the run goes on.

## Main definitions

* `Program.Reaches H P p s`: run from `s`, the program makes a request in `P`

## Main results

* `Program.reaches_bind`: a composed program
* `Program.Asks.reaches_bind`, `Asks.reaches_bind_check`: after a part that makes no request in `P`
-/

namespace Interaction

namespace Program

variable {I : Interface} {ε α β σ : Type} {H : Handler I σ} {P S : I.Request → Prop}

/-- **The program run alone makes a request in `P`.** -/
def Reaches (H : Handler I σ) (P : I.Request → Prop) (p : Program I ε α) (s : σ) : Prop :=
  ∃ e ∈ p.trace H s, P e.1.request

@[simp] theorem not_reaches_pure (a : α) (s : σ) : ¬(pure a : Program I ε α).Reaches H P s := by
  rintro ⟨e, he, -⟩
  cases he

@[simp] theorem not_reaches_throw (e : ε) (s : σ) :
    ¬(throw e : Program I ε α).Reaches H P s := by
  rintro ⟨e, he, -⟩
  cases he

theorem reaches_ask (q : I.Request) (k : I.Reply q → Program I ε α) (s : σ) :
    (ask q k).Reaches H P s ↔ P q ∨ (k (H q s).1).Reaches H P (H q s).2 := by
  simp only [Reaches, trace, List.mem_cons, or_and_right, exists_or, exists_eq_left]

/-- **A composed program makes the request in its first part, or in its second** when the first one
returns. -/
theorem reaches_bind {p : Program I ε α} {f : α → Program I ε β} {s : σ} :
    (p.bind f).Reaches H P s ↔
      p.Reaches H P s ∨ ∃ a s₁, p.exec H s = (.ok a, s₁) ∧ (f a).Reaches H P s₁ := by
  unfold Reaches
  rw [trace_bind]
  simp only [List.mem_append, or_and_right, exists_or]
  refine or_congr_right ?_
  rcases p.exec H s with ⟨e | a, s₁⟩
  · simp
  · constructor
    · intro h
      exact ⟨a, s₁, rfl, h⟩
    · rintro ⟨_, _, heq, h⟩
      cases heq
      exact h

/-- A program that never asks for it does not make the request. -/
theorem Asks.not_reaches {p : Program I ε α} (hp : p.Asks S) (hS : ∀ q, S q → ¬P q) (s : σ) :
    ¬p.Reaches H P s := by
  induction p generalizing s with
  | pure a => exact not_reaches_pure a s
  | throw e => exact not_reaches_throw e s
  | ask q k ih =>
    rw [reaches_ask]
    rintro (hq | h)
    · exact hS q hp.1 hq
    · exact ih _ (hp.2 _) _ h

/-- After a part that never asks for it. -/
theorem Asks.reaches_bind {p : Program I ε α} {f : α → Program I ε β} (hp : p.Asks S)
    (hS : ∀ q, S q → ¬P q) (s : σ) :
    (p.bind f).Reaches H P s ↔ ∃ a s₁, p.exec H s = (.ok a, s₁) ∧ (f a).Reaches H P s₁ := by
  rw [Program.reaches_bind, or_iff_right (hp.not_reaches hS s)]

/-- After a part that never asks for it, and returns. -/
theorem Asks.reaches_bind_ok {p : Program I ε α} {f : α → Program I ε β} {a : α} {s s₁ : σ}
    (hp : p.Asks S) (hS : ∀ q, S q → ¬P q) (hexec : p.exec H s = (.ok a, s₁)) :
    (p.bind f).Reaches H P s ↔ (f a).Reaches H P s₁ := by
  rw [hp.reaches_bind hS s, hexec]
  constructor
  · rintro ⟨_, _, heq, h⟩
    cases heq
    exact h
  · intro h
    exact ⟨a, s₁, rfl, h⟩

/-- After a check that never asks for it. -/
theorem Asks.reaches_bind_check {p : Program I ε Unit} {f : Unit → Program I ε β} {c : Prop} {s : σ}
    (hp : p.Asks S) (hS : ∀ q, S q → ¬P q)
    (hexec : ∀ {s'}, p.exec H s = (.ok (), s') ↔ c ∧ s = s') :
    (p.bind f).Reaches H P s ↔ c ∧ (f ()).Reaches H P s := by
  rw [hp.reaches_bind hS s]
  constructor
  · rintro ⟨_, s₁, hok, h⟩
    obtain ⟨hc, rfl⟩ := hexec.mp hok
    exact ⟨hc, h⟩
  · rintro ⟨hc, h⟩
    exact ⟨(), s, hexec.mpr ⟨hc, rfl⟩, h⟩

end Program

end Interaction
