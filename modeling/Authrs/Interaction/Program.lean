import Mathlib.Logic.Basic
import Mathlib.Control.Basic

/-!
# Programs over an interface

A program talks to its surroundings by requests, one at a time: it makes a request, receives a
reply of the type the interface fixes for that request, and continues from it, until it returns a
value or fails. What the requests do is not part of the program. A handler gives them their
meaning on a state, so that one program has a meaning when it runs alone (`Program.exec`) and the
same program can run among others, request by request.

## Main definitions

* `Interface`, `Event I`: requests with their reply types, and an exchanged pair
* `Program I ε α`: programs returning `α` or failing with `ε`
* `Program.okOr`, `Program.ensure`, `Program.toExcept`: the usual ways to fail and to recover
* `Handler I σ`, `Program.exec`: the meaning of the requests, and a program run alone

## Main results

* `Program.exec_bind`: a composed program runs its parts one after the other
* `Program.exec_toExcept`: a recovered program returns its outcome and keeps its effects
-/

namespace Interaction

/-- Requests, and for each of them the type of its replies. -/
structure Interface where
  Request : Type
  Reply : Request → Type

/-- A request together with the reply it received. -/
structure Event (I : Interface) where
  request : I.Request
  reply : I.Reply request

/-- A program: it returns, it fails, or it makes a request and continues from the reply. -/
inductive Program (I : Interface) (ε α : Type) : Type
  | pure (a : α)
  | throw (e : ε)
  | ask (q : I.Request) (k : I.Reply q → Program I ε α)

namespace Program

variable {I : Interface} {ε α β γ : Type}

/-- Run `f` on the value `p` returns; a failure of `p` is the failure of the whole. -/
def bind : Program I ε α → (α → Program I ε β) → Program I ε β
  | .pure a, f => f a
  | .throw e, _ => .throw e
  | .ask q k, f => .ask q fun r => (k r).bind f

/-- A single request, returning its reply. -/
def request (q : I.Request) : Program I ε (I.Reply q) :=
  .ask q .pure

instance : Monad (Program I ε) where
  pure := .pure
  bind := .bind

@[simp] theorem pure_eq (a : α) : (Pure.pure a : Program I ε α) = .pure a := rfl

@[simp] theorem bind_eq (p : Program I ε α) (f : α → Program I ε β) : p >>= f = p.bind f := rfl

@[simp] theorem pure_bind (a : α) (f : α → Program I ε β) : (Program.pure a).bind f = f a := rfl

@[simp] theorem throw_bind (e : ε) (f : α → Program I ε β) :
    (Program.throw e).bind f = .throw e := rfl

@[simp] theorem ask_bind (q : I.Request) (k : I.Reply q → Program I ε α)
    (f : α → Program I ε β) : (Program.ask q k).bind f = .ask q fun r => (k r).bind f := rfl

theorem bind_pure (p : Program I ε α) : p.bind .pure = p := by
  induction p with
  | pure a => rfl
  | throw e => rfl
  | ask q k ih =>
    rw [ask_bind]
    congr
    funext r
    exact ih r

theorem bind_assoc (p : Program I ε α) (f : α → Program I ε β) (g : β → Program I ε γ) :
    (p.bind f).bind g = p.bind fun a => (f a).bind g := by
  induction p with
  | pure a => rfl
  | throw e => rfl
  | ask q k ih =>
    simp only [ask_bind]
    congr
    funext r
    exact ih r

instance : LawfulMonad (Program I ε) :=
  LawfulMonad.mk' _ bind_pure (fun _ _ => rfl) (fun p f g => bind_assoc p f g)

/-- The value of an option; its absence is the failure `e`. -/
def okOr (o : Option α) (e : ε) : Program I ε α :=
  match o with
  | some a => .pure a
  | none => .throw e

/-- The failure `e` unless `c` holds. -/
def ensure (c : Prop) [Decidable c] (e : ε) : Program I ε Unit :=
  if c then .pure () else .throw e

/-- An outcome that is already known. -/
def ofExcept : Except ε α → Program I ε α
  | .ok a => .pure a
  | .error e => .throw e

/-- Run `p` and return its outcome: a failure that `recoverable` picks becomes a value, any other
stays a failure. -/
def toExcept {δ : Type} (recoverable : ε → Option δ) : Program I ε α → Program I ε (Except δ α)
  | .pure a => .pure (.ok a)
  | .throw e =>
    match recoverable e with
    | some d => .pure (.error d)
    | none => .throw e
  | .ask q k => .ask q fun r => (k r).toExcept recoverable

@[simp] theorem okOr_some (a : α) (e : ε) : (okOr (some a) e : Program I ε α) = .pure a := rfl

@[simp] theorem okOr_none (e : ε) : (okOr none e : Program I ε α) = .throw e := rfl

theorem ensure_pos {c : Prop} [Decidable c] (h : c) (e : ε) :
    (ensure c e : Program I ε Unit) = .pure () := if_pos h

theorem ensure_neg {c : Prop} [Decidable c] (h : ¬c) (e : ε) :
    (ensure c e : Program I ε Unit) = .throw e := if_neg h

@[simp] theorem ofExcept_ok (a : α) : (ofExcept (.ok a) : Program I ε α) = .pure a := rfl

@[simp] theorem ofExcept_error (e : ε) : (ofExcept (.error e) : Program I ε α) = .throw e := rfl

end Program

/-- The meaning of the requests on a state: the reply, and the state after it. -/
abbrev Handler (I : Interface) (σ : Type) : Type :=
  (q : I.Request) → σ → I.Reply q × σ

namespace Program

variable {I : Interface} {ε α β σ : Type} (H : Handler I σ)

/-- **A program run alone** from a state: its outcome and the state it leaves. -/
def exec : Program I ε α → σ → Except ε α × σ
  | .pure a, s => (.ok a, s)
  | .throw e, s => (.error e, s)
  | .ask q k, s => (k (H q s).1).exec (H q s).2

/-- The exchanges of a program run alone, in order, each with the state it started from. -/
def trace : Program I ε α → σ → List (Event I × σ)
  | .pure _, _ => []
  | .throw _, _ => []
  | .ask q k, s => (⟨q, (H q s).1⟩, s) :: (k (H q s).1).trace (H q s).2

@[simp] theorem exec_pure (a : α) (s : σ) : (pure a : Program I ε α).exec H s = (.ok a, s) := rfl

@[simp] theorem exec_throw (e : ε) (s : σ) :
    (throw e : Program I ε α).exec H s = (.error e, s) := rfl

@[simp] theorem exec_ask (q : I.Request) (k : I.Reply q → Program I ε α) (s : σ) :
    (ask q k).exec H s = (k (H q s).1).exec H (H q s).2 := rfl

@[simp] theorem exec_request (q : I.Request) (s : σ) :
    (request q : Program I ε _).exec H s = (.ok (H q s).1, (H q s).2) := rfl

/-- **Sequential composition**: the second program runs from the state the first one leaves. -/
theorem exec_bind (p : Program I ε α) (f : α → Program I ε β) (s : σ) :
    (p.bind f).exec H s =
      match p.exec H s with
      | (.ok a, s') => (f a).exec H s'
      | (.error e, s') => (.error e, s') := by
  induction p generalizing s with
  | pure a => rfl
  | throw e => rfl
  | ask q k ih => exact ih _ _

theorem exec_bind_ok {p : Program I ε α} {a : α} {s s' : σ} (h : p.exec H s = (.ok a, s'))
    (f : α → Program I ε β) : (p.bind f).exec H s = (f a).exec H s' := by
  rw [exec_bind, h]

/-- A composed program returns when both parts do. -/
theorem exec_bind_eq_ok {p : Program I ε α} {f : α → Program I ε β} {b : β} {s s' : σ} :
    (p.bind f).exec H s = (.ok b, s') ↔
      ∃ a s₁, p.exec H s = (.ok a, s₁) ∧ (f a).exec H s₁ = (.ok b, s') := by
  rw [exec_bind]
  rcases p.exec H s with ⟨e | a, s₁⟩
  · simp
  · constructor
    · intro h
      exact ⟨a, s₁, rfl, h⟩
    · rintro ⟨_, _, ⟨⟩, h⟩
      exact h

theorem exec_bind_error {p : Program I ε α} {e : ε} {s s' : σ}
    (h : p.exec H s = (.error e, s')) (f : α → Program I ε β) :
    (p.bind f).exec H s = (.error e, s') := by
  rw [exec_bind, h]

theorem trace_bind (p : Program I ε α) (f : α → Program I ε β) (s : σ) :
    (p.bind f).trace H s = p.trace H s ++
      match p.exec H s with
      | (.ok a, s') => (f a).trace H s'
      | (.error _, _) => [] := by
  induction p generalizing s with
  | pure a => rfl
  | throw e => rfl
  | ask q k ih =>
    simp only [ask_bind, trace, exec_ask, List.cons_append]
    congr 1
    exact ih _ _

/-- Recovering changes the outcome and nothing else. -/
theorem exec_toExcept {δ : Type} (recoverable : ε → Option δ) (p : Program I ε α) (s : σ) :
    (p.toExcept recoverable).exec H s =
      ((match (p.exec H s).1 with
        | .ok a => .ok (.ok a)
        | .error e =>
          match recoverable e with
          | some d => .ok (.error d)
          | none => .error e), (p.exec H s).2) := by
  induction p generalizing s with
  | pure a => rfl
  | throw e =>
    simp only [toExcept, exec_throw]
    cases recoverable e <;> rfl
  | ask q k ih => exact ih _ _

end Program

end Interaction
