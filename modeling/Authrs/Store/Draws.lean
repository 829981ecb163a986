import Authrs.Store.Interface
import Authrs.Interaction.Concurrent
import Mathlib.Order.Interval.Set.Basic

/-!
# Draws from a stream

Random values come from streams that every draw moves on. Whatever programs run, the values drawn
from one stream are its values between two draws, each drawn by one move as long as the stream
does not repeat itself there.

## Main definitions

* `Draws w stream draw`: the exchanges with a drawn value draw the present one of the stream
* `DrawnFrom stream draw start s log`: what a record has drawn since the draw `start`

## Main results

* `DrawnFrom.move`: every exchange keeps this
-/

namespace Authrs

open Interaction

variable {ι κ : Type} {w : World} {s : State} {log : List (Move authrs ι State)}

theorem handle_draws_le (w : World) (s : State) (q : Request) :
    s.draws ≤ (handle w q s).2.draws := by
  cases q with
  | sql q =>
    simp only [handle, State.afterSql]
    split <;> exact Nat.le_add_right _ _
  | _ => first | exact Nat.le_refl _ | exact Nat.le_succ _

/-- An exchange that draws a value draws the present one of the stream. -/
def Draws (w : World) (stream : Nat → κ) (draw : Event authrs → Option κ) : Prop :=
  ∀ q s k, draw ⟨q, (handle w q s).1⟩ = some k →
    k = stream s.draws ∧ s.draws < (handle w q s).2.draws

/-- **The values drawn in a record** are values of the stream between two draws, each drawn by one
move unless the stream repeats itself there. -/
structure DrawnFrom (stream : Nat → κ) (draw : Event authrs → Option κ) (start : Nat) (s : State)
    (log : List (Move authrs ι State)) : Prop where
  started : start ≤ s.draws
  between : ∀ k ∈ log.filterMap fun m => draw m.event, ∃ n ∈ Set.Ico start s.draws, k = stream n
  once : Set.InjOn stream (Set.Ico start s.draws) → (log.filterMap fun m => draw m.event).Nodup

namespace DrawnFrom

variable {stream : Nat → κ} {draw : Event authrs → Option κ} {start : Nat}

theorem nil (s : State) :
    DrawnFrom stream draw s.draws s ([] : List (Move authrs ι State)) :=
  ⟨Nat.le_refl _, by simp, fun _ => List.nodup_nil⟩

theorem tick (hd : DrawnFrom stream draw start s log) (d : Nat) :
    DrawnFrom stream draw start (s.tick d) log :=
  ⟨hd.started, hd.between, hd.once⟩

/-- **Every exchange keeps the drawn values distinct**, as long as the stream is. -/
theorem move (hdraw : Draws w stream draw) (hd : DrawnFrom stream draw start s log) (i : ι)
    (q : Request) :
    DrawnFrom stream draw start (handle w q s).2 (⟨i, ⟨q, (handle w q s).1⟩, s⟩ :: log) := by
  have hle : s.draws ≤ (handle w q s).2.draws := handle_draws_le w s q
  have hstarted : start ≤ (handle w q s).2.draws := Nat.le_trans hd.started hle
  have hbetween : ∀ k ∈ log.filterMap fun m => draw m.event,
      ∃ n ∈ Set.Ico start (handle w q s).2.draws, k = stream n := by
    intro k hk
    obtain ⟨n, hn, rfl⟩ := hd.between k hk
    exact ⟨n, Set.Ico_subset_Ico_right hle hn, rfl⟩
  have honce : Set.InjOn stream (Set.Ico start (handle w q s).2.draws) →
      (log.filterMap fun m => draw m.event).Nodup :=
    fun hinj => hd.once (hinj.mono (Set.Ico_subset_Ico_right hle))
  cases hk : draw ⟨q, (handle w q s).1⟩ with
  | none =>
    have hskip := List.filterMap_cons_none (f := fun m : Move authrs ι State => draw m.event)
      (l := log) (a := ⟨i, ⟨q, (handle w q s).1⟩, s⟩) hk
    refine ⟨hstarted, ?_, ?_⟩
    · rwa [hskip]
    · rwa [hskip]
  | some k =>
    have hkeep := List.filterMap_cons_some (f := fun m : Move authrs ι State => draw m.event)
      (l := log) (a := ⟨i, ⟨q, (handle w q s).1⟩, s⟩) hk
    obtain ⟨rfl, hlt⟩ := hdraw q s k hk
    have hnow : s.draws ∈ Set.Ico start (handle w q s).2.draws := ⟨hd.started, hlt⟩
    refine ⟨hstarted, ?_, fun hinj => ?_⟩
    · rw [hkeep, List.forall_mem_cons]
      exact ⟨⟨s.draws, hnow, rfl⟩, hbetween⟩
    · rw [hkeep, List.nodup_cons]
      refine ⟨fun hmem => ?_, honce hinj⟩
      -- A value drawn before comes from an earlier place of the stream.
      obtain ⟨n, hn, heq⟩ := hd.between _ hmem
      have hsame := hinj hnow (Set.Ico_subset_Ico_right hle hn) heq
      exact absurd hsame (Nat.ne_of_gt hn.2)

end DrawnFrom

end Authrs
