import Authrs.Interaction.Program

/-!
# Interrupted runs

A program shares its state with others, which act between its requests. What they may do is a
relation between states, and an interrupted run records each exchange with the state in which the
request was made.

## Main definitions

* `Program.Interrupted H R p s tr r`: interrupted by moves in `R`, the program runs from `s`,
  exchanges `tr` and ends with `r`

## Main results

* `Program.interrupted_ask`: a request, and the rest of the run
* `Program.interrupted_of_exec`: a run alone is a run that nothing interrupts
-/

namespace Interaction

namespace Program

variable {I : Interface} {ε α σ : Type} {H : Handler I σ} {R : σ → σ → Prop}

/-- **An interrupted run**: before each request, others move the state by `R`. -/
inductive Interrupted (H : Handler I σ) (R : σ → σ → Prop) :
    Program I ε α → σ → List (Event I × σ) → Except ε α → Prop
  | pure (a : α) (s : σ) : Interrupted H R (.pure a) s [] (.ok a)
  | throw (e : ε) (s : σ) : Interrupted H R (.throw e) s [] (.error e)
  | ask {q : I.Request} {k : I.Reply q → Program I ε α} {s s₁ : σ} {tr : List (Event I × σ)}
      {r : Except ε α} (moved : R s s₁) (rest : Interrupted H R (k (H q s₁).1) (H q s₁).2 tr r) :
      Interrupted H R (.ask q k) s ((⟨q, (H q s₁).1⟩, s₁) :: tr) r

theorem interrupted_pure {a : α} {s : σ} {tr : List (Event I × σ)} {r : Except ε α} :
    Interrupted H R (.pure a) s tr r ↔ tr = [] ∧ r = .ok a := by
  constructor
  · intro h
    cases h
    exact ⟨rfl, rfl⟩
  · rintro ⟨rfl, rfl⟩
    exact .pure a s

theorem interrupted_throw {e : ε} {s : σ} {tr : List (Event I × σ)} {r : Except ε α} :
    Interrupted H R (.throw e) s tr r ↔ tr = [] ∧ r = .error e := by
  constructor
  · intro h
    cases h
    exact ⟨rfl, rfl⟩
  · rintro ⟨rfl, rfl⟩
    exact .throw e s

/-- **A request, and the rest of the run**: the others have moved before it. -/
theorem interrupted_ask {q : I.Request} {k : I.Reply q → Program I ε α} {s : σ}
    {tr : List (Event I × σ)} {r : Except ε α} :
    Interrupted H R (.ask q k) s tr r ↔
      ∃ s₁ tr', R s s₁ ∧ tr = (⟨q, (H q s₁).1⟩, s₁) :: tr' ∧
        Interrupted H R (k (H q s₁).1) (H q s₁).2 tr' r := by
  constructor
  · intro h
    cases h with
    | ask moved rest => exact ⟨_, _, moved, rfl, rest⟩
  · rintro ⟨s₁, tr', moved, rfl, rest⟩
    exact .ask moved rest

/-- A run alone is a run that nothing interrupts. -/
theorem interrupted_of_exec (hR : ∀ s, R s s) (p : Program I ε α) (s : σ) :
    Interrupted H R p s (p.trace H s) (p.exec H s).1 := by
  induction p generalizing s with
  | pure a => exact .pure a s
  | throw e => exact .throw e s
  | ask q k ih => exact .ask (hR s) (ih _ _)

end Program

end Interaction
