import Authrs.Interaction.Concurrent

/-!
# Runs that meet a condition

A condition on a run is asked of its moves, one by one, each with the record before it; or of its
turns, each with the configuration in which the program makes its request. An invariant that the
moves of such a run keep holds in every state that the run reaches.

## Main definitions

* `EachMove P log`: every move of the record satisfies `P`, given the record before it
* `Move.after H m`: the state that a move leaves
* `Config.EachTurn P c l`: every request of the run is made in a configuration that satisfies `P`
* `Config.Running c i`: a program that has not ended

## Main results

* `Config.run_when`: an invariant of the runs whose moves meet a condition, at the end and after
  every move
* `Config.run_turns`: an invariant of the runs whose turns meet a condition
* `append_cons_cases`: two elements of one record, by their order
-/

namespace Interaction

/-- Two elements of one list: the first comes before the second, is it, or comes after it. -/
theorem append_cons_cases {α : Type} {l₁ l₂ l₃ l₄ : List α} {a b : α}
    (h : l₁ ++ a :: l₂ = l₃ ++ b :: l₄) :
    (∃ c, l₃ = l₁ ++ a :: c ∧ l₂ = c ++ b :: l₄) ∨ (l₁ = l₃ ∧ a = b ∧ l₂ = l₄) ∨
      ∃ c, l₁ = l₃ ++ b :: c ∧ l₄ = c ++ a :: l₂ := by
  rcases List.append_eq_append_iff.mp h with ⟨c, rfl, hc⟩ | ⟨c, rfl, hc⟩
  · cases c with
    | nil =>
      obtain ⟨rfl, rfl⟩ := List.cons.inj hc
      exact .inr (.inl ⟨by simp, rfl, rfl⟩)
    | cons x c =>
      obtain ⟨rfl, rfl⟩ := List.cons.inj hc
      exact .inl ⟨c, rfl, rfl⟩
  · cases c with
    | nil =>
      obtain ⟨rfl, rfl⟩ := List.cons.inj hc
      exact .inr (.inl ⟨by simp, rfl, rfl⟩)
    | cons x c =>
      obtain ⟨rfl, rfl⟩ := List.cons.inj hc
      exact .inr (.inr ⟨c, rfl, rfl⟩)

section Record

variable {I : Interface} {ι σ : Type}

/-- The state that a move leaves. -/
def Move.after (H : Handler I σ) (m : Move I ι σ) : σ := (H m.event.request m.before).2

/-- Every move of a record satisfies `P`, given the record before it. -/
def EachMove (P : List (Move I ι σ) → Move I ι σ → Prop) (log : List (Move I ι σ)) : Prop :=
  ∀ newer m older, log = newer ++ m :: older → P older m

variable {P Q : List (Move I ι σ) → Move I ι σ → Prop} {log : List (Move I ι σ)}
  {m : Move I ι σ}

theorem EachMove.nil : EachMove P ([] : List (Move I ι σ)) := by
  intro newer m older h
  simp at h

theorem eachMove_cons : EachMove P (m :: log) ↔ P log m ∧ EachMove P log := by
  constructor
  · intro h
    refine ⟨h [] m log rfl, fun newer m' older hl => ?_⟩
    exact h (m :: newer) m' older (congrArg (m :: ·) hl)
  · rintro ⟨hm, hlog⟩ newer m' older hl
    cases newer with
    | nil =>
      obtain ⟨rfl, rfl⟩ := List.cons.inj hl
      exact hm
    | cons x newer =>
      obtain ⟨-, hrest⟩ := List.cons.inj hl
      exact hlog newer m' older hrest

/-- A condition that looks at the move alone. -/
theorem EachMove.of_forall (h : ∀ m ∈ log, ∀ older, P older m) : EachMove P log := by
  rintro newer m older rfl
  exact h m (List.mem_append_right _ List.mem_cons_self) older

end Record

/-- The next request of a program. -/
def Program.next {I : Interface} {ε α : Type} : Program I ε α → Option I.Request
  | .ask q _ => some q
  | _ => none

/-- What a program that has ended has returned. -/
def Program.value {I : Interface} {ε α : Type} : Program I ε α → Option α
  | .pure a => some a
  | _ => none

theorem Program.value_eq_some {I : Interface} {ε α : Type} {p : Program I ε α} {a : α} :
    p.value = some a ↔ p = .pure a := by
  cases p <;> simp [value]

namespace Config

variable {I : Interface} {ε α ι σ τ : Type} [DecidableEq ι]
  {H : Handler I σ} {env : τ → σ → σ}
  {C : ι → Contract I} {Q : ι → List (Event I) → Except ε α → Prop}

/-- **Invariants of the runs whose moves meet a condition**: they hold at the end of such a run,
and after every move of it. -/
theorem run_when {P : List (Move I ι σ) → Move I ι σ → Prop}
    {J : σ → List (Move I ι σ) → Prop} {s : σ} {p : ι → Program I ε α}
    (hp : ∀ i, (p i).Keeps (C i) (Q i) []) (hrely : ∀ i h e, (C i).rely h e) (h0 : J s [])
    (hmove : ∀ s log i q, J s log → Guaranteed C (⟨i, ⟨q, (H q s).1⟩, s⟩ :: log) →
      P log ⟨i, ⟨q, (H q s).1⟩, s⟩ → J (H q s).2 (⟨i, ⟨q, (H q s).1⟩, s⟩ :: log))
    (henv : ∀ s log t, J s log → J (env t s) log) (l : List (ι ⊕ τ))
    (hP : EachMove P ((start s p).run H env l).log) :
    J ((start s p).run H env l).state ((start s p).run H env l).log ∧
      EachMove (fun older m => J (m.after H) (m :: older)) ((start s p).run H env l).log := by
  refine run_invariant_of_record (J := fun s log => EachMove P log →
    J s log ∧ EachMove (fun older m => J (m.after H) (m :: older)) log) hp hrely
    (fun _ => ⟨h0, EachMove.nil⟩) ?_ ?_ l hP
  · intro s log i q hJ hg hlog
    obtain ⟨hm, hrest⟩ := eachMove_cons.mp hlog
    have hnow := hmove s log i q (hJ hrest).1 hg hm
    exact ⟨hnow, eachMove_cons.mpr ⟨hnow, (hJ hrest).2⟩⟩
  · intro s log t hJ hlog
    exact ⟨henv s log t (hJ hlog).1, (hJ hlog).2⟩

/-! ### Turns -/

variable (H env) in
/-- Every request of a run is made in a configuration that satisfies `P`. -/
def EachTurn (P : Config I ε α ι σ → ι → I.Request → Prop) (c₀ : Config I ε α ι σ)
    (l : List (ι ⊕ τ)) : Prop :=
  ∀ l' i q k, l' ++ [Sum.inl i] <+: l → (c₀.run H env l').threads i = .ask q k →
    P (c₀.run H env l') i q

variable {P P' : Config I ε α ι σ → ι → I.Request → Prop} {c₀ : Config I ε α ι σ}
  {l l' : List (ι ⊕ τ)}

theorem EachTurn.initial (h : EachTurn H env P c₀ l) (hl : l' <+: l) : EachTurn H env P c₀ l' :=
  fun l'' i q k hl' hi => h l'' i q k (hl'.trans hl) hi

theorem run_append (c : Config I ε α ι σ) (l l' : List (ι ⊕ τ)) :
    c.run H env (l ++ l') = (c.run H env l).run H env l' :=
  List.foldl_append

/-- The turns of the rest of a run. -/
theorem EachTurn.rest (h : EachTurn H env P c₀ (l ++ l')) :
    EachTurn H env P (c₀.run H env l) l' := by
  intro l'' i q k hl'' hi
  rw [← run_append] at hi ⊢
  refine h (l ++ l'') i q k ?_ hi
  rw [List.append_assoc]
  exact List.prefix_append_right_inj l |>.mpr hl''

theorem EachTurn.and (h : EachTurn H env P c₀ l) (h' : EachTurn H env P' c₀ l) :
    EachTurn H env (fun c i q => P c i q ∧ P' c i q) c₀ l :=
  fun l' i q k hl hi => ⟨h l' i q k hl hi, h' l' i q k hl hi⟩

/-- **Invariants of the runs whose turns meet a condition.** -/
theorem run_turns {J : Config I ε α ι σ → Prop} (h0 : J c₀)
    (hmove : ∀ c i q k, J c → c.threads i = .ask q k → P c i q → J (c.advance H i q k))
    (henv : ∀ c t, J c → J { c with state := env t c.state }) (hP : EachTurn H env P c₀ l) :
    J (c₀.run H env l) := by
  induction l using List.reverseRecOn with
  | nil => exact h0
  | append_singleton l x ih =>
    have hJ : J (c₀.run H env l) := ih (hP.initial (List.prefix_append _ _))
    rw [run_snoc]
    rcases play_cases H env (c₀.run H env l) x with
      ⟨i, q, k, rfl, hi, hp⟩ | ⟨i, rfl, hp⟩ | ⟨t, rfl, hp⟩
    · rw [hp]
      exact hmove _ i q k hJ hi (hP l i q k (List.prefix_refl _) hi)
    · rw [hp]
      exact hJ
    · rw [hp]
      exact henv _ t hJ

theorem play_ask {c : Config I ε α ι σ} {i : ι} {q : I.Request} {k : I.Reply q → Program I ε α}
    (hi : c.threads i = .ask q k) : c.play H env (.inl i) = c.advance H i q k := by
  simp only [play, hi]

/-- Who has moved has had a turn. -/
theorem who_mem {s : σ} {p : ι → Program I ε α} {m : Move I ι σ}
    (hm : m ∈ ((Config.start s p).run H env l).log) : .inl m.who ∈ l := by
  induction l using List.reverseRecOn with
  | nil => cases hm
  | append_singleton l x ih =>
    rw [run_snoc] at hm
    rcases play_cases H env ((Config.start s p).run H env l) x with
      ⟨i, q, k, rfl, -, hp⟩ | ⟨i, rfl, hp⟩ | ⟨t, rfl, hp⟩
    · rw [hp] at hm
      rcases List.mem_cons.mp hm with rfl | hm
      · exact List.mem_append_right _ (List.mem_singleton_self _)
      · exact List.mem_append_left _ (ih hm)
    · rw [hp] at hm
      exact List.mem_append_left _ (ih hm)
    · rw [hp] at hm
      exact List.mem_append_left _ (ih hm)

/-- The turn of a schedule that comes after some of its turns. -/
theorem take_of_turn {β : Type} {l l' : List β} {x : β} (h : l' ++ [x] <+: l) :
    l'.length < l.length ∧ l[l'.length]? = some x ∧ l.take l'.length = l' ∧
      l.take (l'.length + 1) = l' ++ [x] := by
  obtain ⟨rest, rfl⟩ := h
  refine ⟨by simp, by simp, by simp, ?_⟩
  exact List.take_left' (by simp)

/-- A longer run records more. -/
theorem log_suffix (H : Handler I σ) (env : τ → σ → σ) (c : Config I ε α ι σ)
    {l l' : List (ι ⊕ τ)} (h : l' <+: l) :
    (c.run H env l').log <:+ (c.run H env l).log := by
  obtain ⟨r, rfl⟩ := h
  rw [run_append]
  refine run_induction (J := fun c' => (c.run H env l').log <:+ c'.log) List.suffix_rfl ?_
    (fun _ _ hc => hc) r
  intro c' i q k hc _
  exact hc.trans (List.suffix_cons _ _)

/-- A program that has not ended. -/
def Running (c : Config I ε α ι σ) (i : ι) : Prop := ∃ q k, c.threads i = .ask q k

/-- A program that does not make the request is where it was. -/
theorem threads_advance_ne {c : Config I ε α ι σ} {i j : ι} (h : j ≠ i) (q : I.Request)
    (k : I.Reply q → Program I ε α) : (c.advance H i q k).threads j = c.threads j :=
  Function.update_of_ne h _ _

theorem own_advance_ne {c : Config I ε α ι σ} {i j : ι} (h : j ≠ i) (q : I.Request)
    (k : I.Reply q → Program I ε α) : own j (c.advance H i q k).log = own j c.log :=
  own_cons_ne (fun hij => h hij.symm) _ _ _

theorem own_advance_self (c : Config I ε α ι σ) (i : ι) (q : I.Request)
    (k : I.Reply q → Program I ε α) :
    own i (c.advance H i q k).log = ⟨q, (H q c.state).1⟩ :: own i c.log :=
  own_cons_self _ _ _ _

end Config

end Interaction
