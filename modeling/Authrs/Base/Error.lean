import Authrs.Interaction.Program
import Mathlib.Data.List.Forall2

/-!
# Failures

The errors of the application with their texts, the errors the database reports, and the
conversion `From<sqlx::Error> for AppError` between them. A program of the model can also fail by
a panic, which no `?` and no `unwrap_or_default` recovers.

## Main definitions

* `AppError`, `AppError.display`: the application errors and their `Display`
* `SqlError`, `AppError.ofSqlError`: database errors, and what the application makes of them
* `Failure`: an application error or a panic
-/

namespace Authrs

/-- The application errors. -/
inductive AppError
  | badRequest (s : String)
  | unauthorized (s : String)
  | forbidden (s : String)
  | notFound (s : String)
  | conflict (s : String)
  | locked (s : String)
  | accessExpired (s : String)
  | tooManyRequests (s : String)
  | validation (s : String)
  | internal (s : String)
  deriving DecidableEq, Repr

/-- `Display for AppError`. -/
def AppError.display : AppError → String
  | .badRequest s => "Bad request: " ++ s
  | .unauthorized s => "Unauthorized: " ++ s
  | .forbidden s => "Forbidden: " ++ s
  | .notFound s => "Not found: " ++ s
  | .conflict s => "Conflict: " ++ s
  | .locked s => "Account locked: " ++ s
  | .accessExpired s => "Access expired: " ++ s
  | .tooManyRequests s => "Rate limit: " ++ s
  | .validation s => "Validation error: " ++ s
  | .internal s => "Internal error: " ++ s

/-- The errors of a statement. A violated constraint is reported with its name, and the relation
where the report names it. -/
inductive SqlError
  | rowNotFound
  | uniqueViolation (constraint : String)
  | foreignKeyViolation (relation constraint : String)
  | checkViolation (relation constraint : String)
  | valueTooLong (limit : Nat)
  | integerOutOfRange
  | timestampOutOfRange
  /-- The statement never ends by itself and is cancelled. -/
  | queryCanceled
  /-- The connection failed. -/
  | io (message : String)
  deriving DecidableEq, Repr

/-- `Display for sqlx::Error`. -/
def SqlError.display : SqlError → String
  | .rowNotFound => "no rows returned by a query that expected to return at least one row"
  | .uniqueViolation c =>
    "error returned from database: duplicate key value violates unique constraint \"" ++ c ++ "\""
  | .foreignKeyViolation r c =>
    "error returned from database: insert or update on table \"" ++ r ++
      "\" violates foreign key constraint \"" ++ c ++ "\""
  | .checkViolation r c =>
    "error returned from database: new row for relation \"" ++ r ++
      "\" violates check constraint \"" ++ c ++ "\""
  | .valueTooLong n =>
    "error returned from database: value too long for type character varying(" ++
      toString n ++ ")"
  | .integerOutOfRange => "error returned from database: integer out of range"
  | .timestampOutOfRange => "error returned from database: timestamp out of range"
  | .queryCanceled => "error returned from database: canceling statement due to user request"
  | .io m => m

/-- `From<sqlx::Error> for AppError`. -/
def AppError.ofSqlError : SqlError → AppError
  | .rowNotFound => .notFound "Resource not found"
  | .uniqueViolation _ => .conflict "Resource already exists"
  | e => .internal e.display

/-- How a program of the model fails. -/
inductive Failure
  | error (e : AppError)
  | panic (message : String)
  deriving DecidableEq, Repr

/-- Only an application error is recovered. -/
def Failure.recoverable : Failure → Option AppError
  | .error e => some e
  | .panic _ => none

/-- A sequence of fallible steps succeeds when each step does. -/
theorem bind_eq_ok {ε α β : Type} {x : Except ε α} {f : α → Except ε β} {b : β} :
    x >>= f = .ok b ↔ ∃ a, x = .ok a ∧ f a = .ok b := by
  cases x with
  | ok a => exact ⟨fun h => ⟨a, rfl, h⟩, by rintro ⟨_, ⟨⟩, h⟩; exact h⟩
  | error e => exact ⟨by rintro ⟨⟩, by rintro ⟨_, ⟨⟩, _⟩⟩

/-- **A list of fallible steps succeeds when each does.** -/
theorem mapM_eq_ok {ε α β : Type} {f : α → Except ε β} {l : List α} {bs : List β} :
    l.mapM f = .ok bs ↔ List.Forall₂ (fun a b => f a = .ok b) l bs := by
  induction l generalizing bs with
  | nil =>
    rw [List.mapM_nil, List.forall₂_nil_left_iff]
    exact ⟨fun h => (Except.ok.inj h).symm, fun h => congrArg _ h.symm⟩
  | cons a l ih =>
    rw [List.mapM_cons, bind_eq_ok, List.forall₂_cons_left_iff]
    constructor
    · rintro ⟨b, hb, h⟩
      obtain ⟨bs', hbs, h⟩ := bind_eq_ok.mp h
      exact ⟨b, bs', hb, ih.mp hbs, (Except.ok.inj h).symm⟩
    · rintro ⟨b, bs', hb, hbs, rfl⟩
      exact ⟨b, hb, bind_eq_ok.mpr ⟨bs', ih.mpr hbs, rfl⟩⟩

end Authrs
