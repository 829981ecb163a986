import Authrs.Interaction.Contract

/-!
# Calls made one after the other

A serial run makes its calls in order, each from the state the one before it left; between calls
the surroundings may change the state. What holds of a single call in any state holds of every
call of every run, and what the calls keep is an invariant of the run.

## Main definitions

* `EachCall next P s l`: every call of the run `l` from `s` satisfies `P` in its own state
* `finalState next s l`: the state after the run

## Main results

* `eachCall_congr`, `eachCall_congr_inv`: an equivalence for single calls is one for runs
* `EachCall.invariant`: an invariant of the calls holds at the end
* `Program.allAlong_invariant`: what every exchange keeps holds along a program run alone
-/

namespace Interaction

section Serial

variable {σ κ : Type} (next : σ → κ → σ)

/-- Every call of a run satisfies `P`, in the state it starts from. -/
def EachCall (P : σ → κ → Prop) : σ → List κ → Prop
  | _, [] => True
  | s, c :: l => P s c ∧ EachCall P (next s c) l

def EachCall.decide [∀ s c, Decidable (P s c)] :
    (s : σ) → (l : List κ) → Decidable (EachCall next P s l)
  | _, [] => .isTrue trivial
  | s, c :: l => @instDecidableAnd _ _ _ (EachCall.decide (next s c) l)

instance [∀ s c, Decidable (P s c)] (s : σ) (l : List κ) : Decidable (EachCall next P s l) :=
  EachCall.decide next s l

/-- The state after a run. -/
def finalState (s : σ) (l : List κ) : σ := l.foldl next s

variable {next} {P Q : σ → κ → Prop}

theorem EachCall.imp (h : ∀ s c, P s c → Q s c) {s : σ} {l : List κ}
    (hP : EachCall next P s l) : EachCall next Q s l := by
  induction l generalizing s with
  | nil => trivial
  | cons c l ih => exact ⟨h s c hP.1, ih hP.2⟩

/-- **An equivalence for single calls is one for runs.** -/
theorem eachCall_congr (h : ∀ s c, P s c ↔ Q s c) (s : σ) (l : List κ) :
    EachCall next P s l ↔ EachCall next Q s l :=
  ⟨EachCall.imp fun s c => (h s c).mp, EachCall.imp fun s c => (h s c).mpr⟩

/-- The same under an invariant that a call with the property keeps. -/
theorem eachCall_congr_kept {J : σ → Prop} (hstep : ∀ s c, J s → P s c → J (next s c))
    (h : ∀ s c, J s → (P s c ↔ Q s c)) {s : σ} (hs : J s) (l : List κ) :
    EachCall next P s l ↔ EachCall next Q s l := by
  induction l generalizing s with
  | nil => exact Iff.rfl
  | cons c l ih =>
    constructor
    · rintro ⟨hc, hl⟩
      exact ⟨(h s c hs).mp hc, (ih (hstep s c hs hc)).mp hl⟩
    · rintro ⟨hc, hl⟩
      have hP := (h s c hs).mpr hc
      exact ⟨hP, (ih (hstep s c hs hP)).mpr hl⟩

theorem EachCall.of_forall (h : ∀ s c, P s c) (s : σ) (l : List κ) : EachCall next P s l := by
  induction l generalizing s with
  | nil => trivial
  | cons c l ih => exact ⟨h s c, ih _⟩

/-- The calls before one of a run. -/
theorem EachCall.initial {s : σ} {l l' : List κ} (h : EachCall next P s (l ++ l')) :
    EachCall next P s l := by
  induction l generalizing s with
  | nil => trivial
  | cons c l ih => exact ⟨h.1, ih h.2⟩

theorem EachCall.and {s : σ} {l : List κ} (hP : EachCall next P s l) (hQ : EachCall next Q s l) :
    EachCall next (fun s c => P s c ∧ Q s c) s l := by
  induction l generalizing s with
  | nil => trivial
  | cons c l ih => exact ⟨⟨hP.1, hQ.1⟩, ih hP.2 hQ.2⟩

/-- The calls of a run are the ones in its list. -/
theorem eachCall_mem (s : σ) (l : List κ) : EachCall next (fun _ c => c ∈ l) s l := by
  have h : ∀ l' : List κ, l' ⊆ l → ∀ s, EachCall next (fun _ c => c ∈ l) s l' := by
    intro l'
    induction l' with
    | nil => exact fun _ _ => trivial
    | cons c l' ih =>
      intro hsub s
      rw [List.cons_subset] at hsub
      exact ⟨hsub.1, ih hsub.2 _⟩
  exact h l (List.Subset.refl l) s

/-- **An invariant of the calls** holds at the end of a run. -/
theorem EachCall.invariant {J : σ → Prop} (hstep : ∀ s c, J s → P s c → J (next s c)) {s : σ}
    {l : List κ} (hP : EachCall next P s l) (hs : J s) : J (finalState next s l) := by
  induction l generalizing s with
  | nil => exact hs
  | cons c l ih => exact ih hP.2 (hstep s c hs hP.1)

end Serial

namespace Program

variable {I : Interface} {ε α σ : Type} (H : Handler I σ)
  {P Q : List (Event I) → Event I → σ → Prop} {h : List (Event I)}

theorem AllAlong.imp {tr : List (Event I × σ)} (hPQ : ∀ h e s, P h e s → Q h e s)
    (hP : AllAlong P h tr) : AllAlong Q h tr := by
  induction tr generalizing h with
  | nil => trivial
  | cons m tr ih => exact ⟨hPQ _ _ _ hP.1, ih hP.2⟩

theorem AllAlong.and {tr : List (Event I × σ)} (hP : AllAlong P h tr) (hQ : AllAlong Q h tr) :
    AllAlong (fun h e s => P h e s ∧ Q h e s) h tr := by
  induction tr generalizing h with
  | nil => trivial
  | cons m tr ih => exact ⟨⟨hP.1, hQ.1⟩, ih hP.2 hQ.2⟩

theorem allAlong_true (h : List (Event I)) (tr : List (Event I × σ)) :
    AllAlong (fun _ _ _ => True) h tr := by
  induction tr generalizing h with
  | nil => trivial
  | cons m tr ih => exact ⟨trivial, ih _⟩

/-- A fact that does not look at the history holds of every exchange. -/
theorem allAlong_iff_forall {P : Event I → σ → Prop} {tr : List (Event I × σ)} :
    AllAlong (fun _ e s => P e s) h tr ↔ ∀ m ∈ tr, P m.1 m.2 := by
  induction tr generalizing h with
  | nil => exact iff_of_true trivial (by simp)
  | cons m tr ih =>
    rw [List.forall_mem_cons]
    exact and_congr_right fun _ => ih

/-- What a program asks, it asks when run alone. -/
theorem Asks.trace {S : I.Request → Prop} {p : Program I ε α} (hp : p.Asks S) (s : σ) :
    ∀ m ∈ p.trace H s, S m.1.request := by
  induction p generalizing s with
  | pure a => simp [Program.trace]
  | throw e => simp [Program.trace]
  | ask q k ih =>
    rw [Program.trace, List.forall_mem_cons]
    exact ⟨hp.1, ih _ (hp.2 _) _⟩

/-- A program runs alike where its requests have the same meaning. -/
theorem Asks.exec_congr {S : I.Request → Prop} {p : Program I ε α} (hp : p.Asks S)
    {H' : Handler I σ} (hH : ∀ q, S q → ∀ s, H q s = H' q s) (s : σ) :
    p.exec H s = p.exec H' s := by
  induction p generalizing s with
  | pure a => rfl
  | throw e => rfl
  | ask q k ih =>
    simp only [Program.exec_ask]
    rw [hH q hp.1, ih _ (hp.2 _)]

theorem Asks.trace_congr {S : I.Request → Prop} {p : Program I ε α} (hp : p.Asks S)
    {H' : Handler I σ} (hH : ∀ q, S q → ∀ s, H q s = H' q s) (s : σ) :
    p.trace H s = p.trace H' s := by
  induction p generalizing s with
  | pure a => rfl
  | throw e => rfl
  | ask q k ih =>
    simp only [Program.trace]
    rw [hH q hp.1, ih _ (hp.2 _)]

/-- **A program runs alike over related states** when its requests get the same replies there and keep
the relation. -/
theorem Asks.simulates {S : I.Request → Prop} {p : Program I ε α} (hp : p.Asks S) {τ : Type}
    {H' : Handler I τ} {R : σ → τ → Prop} (hstep : ∀ q, S q → ∀ s t, R s t →
      (H q s).1 = (H' q t).1 ∧ R (H q s).2 (H' q t).2) {s : σ} {t : τ} (h : R s t) :
    (p.exec H s).1 = (p.exec H' t).1 ∧ R (p.exec H s).2 (p.exec H' t).2 ∧
      (p.trace H s).map Prod.fst = (p.trace H' t).map Prod.fst := by
  induction p generalizing s t with
  | pure a => exact ⟨rfl, h, rfl⟩
  | throw e => exact ⟨rfl, h, rfl⟩
  | ask q k ih =>
    obtain ⟨hreply, hnext⟩ := hstep q hp.1 s t h
    obtain ⟨hresult, hlast, htrace⟩ := ih _ (hp.2 (H q s).1) hnext
    simp only [Program.exec_ask, Program.trace, List.map_cons]
    rw [← hreply]
    exact ⟨hresult, hlast, congrArg _ htrace⟩

theorem allAlong_append (tr tr' : List (Event I × σ)) :
    AllAlong P h (tr ++ tr') ↔ AllAlong P h tr ∧ AllAlong P (histories h tr) tr' := by
  induction tr generalizing h with
  | nil => exact ⟨fun hP => ⟨trivial, hP⟩, And.right⟩
  | cons m tr ih =>
    rw [List.cons_append]
    exact (and_congr_right fun _ => ih).trans and_assoc.symm

/-- **What every exchange keeps**, of the history and the state, holds along a program. -/
theorem allAlong_invariant {J : List (Event I) → σ → Prop}
    (hstep : ∀ h s q, J h s → J (⟨q, (H q s).1⟩ :: h) (H q s).2) (p : Program I ε α) {s : σ}
    (hs : J h s) : AllAlong (fun h _ s => J h s) h (p.trace H s) := by
  induction p generalizing h s with
  | pure a => trivial
  | throw e => trivial
  | ask q k ih => exact ⟨hs, ih _ (hstep h s q hs)⟩

/-- A contract that relies on nothing holds along every run of a program that keeps it. -/
theorem Keeps.along {C : Contract I} {Q : List (Event I) → Except ε α → Prop}
    {p : Program I ε α} (hp : p.Keeps C Q h) (hrely : ∀ h e, C.rely h e) (s : σ) :
    AllAlong (fun h e _ => C.guarantee h e) h (p.trace H s) ∧
      Q (histories h (p.trace H s)) (p.exec H s).1 :=
  hp.exec H ((allAlong_true h _).imp fun h e _ _ => hrely h e)

end Program

end Interaction
