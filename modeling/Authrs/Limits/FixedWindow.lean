import Mathlib.Data.List.Nodup
import Mathlib.Data.List.Range

/-!
# Fixed windows

Calls at given times, numbered within windows: a window starts at the first call after the one
before it ended, and lasts for a fixed time. The calls of a window have the numbers from one on, so
at most `limit` of them have a number up to `limit`.

## Main definitions

* `Slot`: the window of a call, and its number there
* `next`, `slots`: the slot of one call, and of the calls of a run

## Main results

* `ordinals_eq_range'`: the calls of a window are numbered from one on
* `countP_le_limit`: how many of them are within a limit
-/

namespace FixedWindow

/-- The place of a call: the number of its window, when the window started, and the number of the
call in it. -/
structure Slot where
  index : Nat
  start : Nat
  ordinal : Nat
  deriving DecidableEq

variable (length : Nat)

/-- The slot of a call after the one before it. -/
def next : Option Slot → Nat → Slot
  | none, now => ⟨0, now, 1⟩
  | some s, now =>
    if s.start + length ≤ now then ⟨s.index + 1, now, 1⟩ else ⟨s.index, s.start, s.ordinal + 1⟩

theorem next_of_ended {length now : Nat} {s : Slot} (h : s.start + length ≤ now) :
    next length (some s) now = ⟨s.index + 1, now, 1⟩ := if_pos h

theorem next_of_running {length now : Nat} {s : Slot} (h : ¬s.start + length ≤ now) :
    next length (some s) now = ⟨s.index, s.start, s.ordinal + 1⟩ := if_neg h

theorem one_le_ordinal_next (last : Option Slot) (now : Nat) : 1 ≤ (next length last now).ordinal := by
  unfold next
  split
  · exact le_rfl
  · split
    · exact le_rfl
    · exact Nat.le_add_left 1 _

/-- The slots of calls at the given times. -/
def slots (times : List Nat) : List Slot :=
  times.foldl (fun seen now => seen ++ [next length seen.getLast? now]) []

variable {length}

@[simp] theorem slots_nil : slots length [] = [] := rfl

theorem slots_snoc (times : List Nat) (now : Nat) :
    slots length (times ++ [now]) =
      slots length times ++ [next length (slots length times).getLast? now] := by
  rw [slots, List.foldl_append]
  rfl

@[simp] theorem length_slots (times : List Nat) : (slots length times).length = times.length := by
  induction times using List.reverseRecOn with
  | nil => rfl
  | append_singleton times now ih => simp [slots_snoc, ih]

theorem one_le_ordinal (times : List Nat) : ∀ s ∈ slots length times, 1 ≤ s.ordinal := by
  induction times using List.reverseRecOn with
  | nil => simp
  | append_singleton times now ih =>
    intro s hs
    rw [slots_snoc] at hs
    rcases List.mem_append.mp hs with hs | hs
    · exact ih s hs
    · rw [List.mem_singleton.mp hs]
      exact one_le_ordinal_next length _ _

/-- The calls of a window. -/
def ofWindow (l : List Slot) (i : Nat) : List Slot := l.filter fun s => s.index = i

theorem ofWindow_append (l l' : List Slot) (i : Nat) :
    ofWindow (l ++ l') i = ofWindow l i ++ ofWindow l' i := List.filter_append ..

/-- What holds of the last slot: no window after its own has begun, and its number is the number of
calls of its window. -/
theorem last_spec (times : List Nat) : ∀ s ∈ (slots length times).getLast?,
    (∀ s' ∈ slots length times, s'.index ≤ s.index) ∧
      (ofWindow (slots length times) s.index).length = s.ordinal := by
  induction times using List.reverseRecOn with
  | nil => simp
  | append_singleton times now ih =>
    rw [slots_snoc, List.getLast?_concat]
    intro s hs
    obtain rfl := Option.some.inj hs
    cases hlast : (slots length times).getLast? with
    | none =>
      rw [List.getLast?_eq_none_iff.mp hlast]
      simp [next, ofWindow]
    | some p =>
      obtain ⟨hle, hcount⟩ := ih p hlast
      have hnone : ofWindow (slots length times) (p.index + 1) = [] := by
        apply List.filter_eq_nil_iff.mpr
        intro s' hs'
        have := hle s' hs'
        simp only [decide_eq_true_eq]
        omega
      rw [next]
      split
      · refine ⟨fun s' hs' => ?_, ?_⟩
        · rcases List.mem_append.mp hs' with hs' | hs'
          · exact Nat.le_succ_of_le (hle s' hs')
          · rw [List.mem_singleton.mp hs']
        · rw [ofWindow_append, hnone]
          simp [ofWindow]
      · refine ⟨fun s' hs' => ?_, ?_⟩
        · rcases List.mem_append.mp hs' with hs' | hs'
          · exact hle s' hs'
          · rw [List.mem_singleton.mp hs']
        · rw [ofWindow_append, List.length_append, hcount]
          simp [ofWindow]

/-- **The calls of a window are numbered from one on.** -/
theorem ordinals_eq_range' (times : List Nat) (i : Nat) :
    (ofWindow (slots length times) i).map Slot.ordinal =
      List.range' 1 (ofWindow (slots length times) i).length := by
  induction times using List.reverseRecOn with
  | nil => rfl
  | append_singleton times now ih =>
    have hlast := @last_spec length (times ++ [now])
    rw [slots_snoc, List.getLast?_concat] at hlast
    obtain ⟨-, hcount⟩ := hlast _ rfl
    rw [slots_snoc, ofWindow_append]
    rw [ofWindow_append] at hcount
    by_cases hi : (next length (slots length times).getLast? now).index = i
    · subst hi
      have hself : ofWindow [next length (slots length times).getLast? now]
          (next length (slots length times).getLast? now).index =
          [next length (slots length times).getLast? now] := by
        simp [ofWindow]
      rw [hself, List.length_append, List.length_singleton] at hcount
      rw [hself, List.map_append, ih, List.map_singleton, List.length_append, List.length_singleton,
        List.range'_concat, ← hcount]
      simp [Nat.add_comm]
    · have hother : ofWindow [next length (slots length times).getLast? now] i = [] := by
        simp [ofWindow, hi]
      rw [hother, List.append_nil, ih]

/-- **How many calls of a window are within a limit**: as many as the limit, or all of them. -/
theorem countP_le_limit (limit k : Nat) :
    (List.range' 1 k).countP (· ≤ limit) = min k limit := by
  induction k with
  | zero => simp
  | succ k ih =>
    rw [List.range'_concat, List.countP_append, ih, List.countP_singleton]
    simp only [Nat.one_mul, decide_eq_true_eq]
    split <;> omega

theorem countP_ofWindow (times : List Nat) (limit i : Nat) :
    (slots length times).countP (fun s => s.index = i ∧ s.ordinal ≤ limit) =
      min (ofWindow (slots length times) i).length limit := by
  rw [← countP_le_limit, ← ordinals_eq_range', List.countP_map, ofWindow, List.countP_filter]
  congr 1
  funext s
  simp [Bool.and_comm]

end FixedWindow
