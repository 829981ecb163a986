import Authrs.Interaction.Contract
import Mathlib.Logic.Function.Basic
import Mathlib.Data.List.Induction

/-!
# Programs run side by side

Any number of programs share one state. A schedule says which of them makes its next request, and
when the surroundings act on their own (time passing, say); each request is answered by the
handler at once, so that the requests are the atomic steps and a schedule is an interleaving of
them. The run records its moves, newest first, each with the state it started from.

A contract that every program keeps by itself holds of every move of every run, since a program
sees the others only through the replies it gets. A fact about the state and the record that
every guaranteed move keeps, and every act of the surroundings, is then an invariant of all runs.

## Main definitions

* `Move I ι σ`, `Config I ε α ι σ`: a recorded exchange, and a state with its running programs
* `Config.play`, `Config.run`: one entry of a schedule, and a whole schedule
* `own i log`: the history of one program in a record

## Main results

* `Config.run_induction`: what the start has and every entry keeps holds after every schedule
* `Config.run_keeps`: every program still keeps its contract, from its own history on
* `Config.run_invariant`: an invariant of state and record, from guaranteed moves
* `Config.run_guaranteed`: every recorded move is guaranteed
* `Config.run_invariant_of_record`: the same invariant, where a move relies on the record
* `Config.run_log_split`: each recorded move was made by a shorter schedule
* `Config.run_flip`: what has become true since a move became true by a later one
* `eq_of_stamp`: a stamp that occurs once is on one move
* `nodup_used`: what is used once after its draw is used once in the run
-/

namespace Interaction

/-- A recorded exchange: who made it, and the state it started from. -/
structure Move (I : Interface) (ι σ : Type) where
  who : ι
  event : Event I
  before : σ

section Own

variable {I : Interface} {ι σ : Type} [DecidableEq ι]

/-- The history of one program in a record, newest first. -/
def own (i : ι) (log : List (Move I ι σ)) : List (Event I) :=
  (log.filter fun m => m.who = i).map Move.event

@[simp] theorem own_nil (i : ι) : own i ([] : List (Move I ι σ)) = [] := rfl

@[simp] theorem own_cons_self (i : ι) (e : Event I) (s : σ) (log : List (Move I ι σ)) :
    own i (⟨i, e, s⟩ :: log) = e :: own i log := by
  simp [own]

theorem own_cons_ne {i j : ι} (h : j ≠ i) (e : Event I) (s : σ) (log : List (Move I ι σ)) :
    own i (⟨j, e, s⟩ :: log) = own i log := by
  simp [own, h]

theorem mem_own {i : ι} {e : Event I} {log : List (Move I ι σ)} :
    e ∈ own i log ↔ ∃ m ∈ log, m.who = i ∧ m.event = e := by
  simp [own, and_assoc]

/-- An exchange in the history of a program is a move of the record. -/
theorem own_split {i : ι} {e : Event I} {log : List (Move I ι σ)} {newer older : List (Event I)}
    (h : own i log = newer ++ e :: older) :
    ∃ n m o, log = n ++ m :: o ∧ m.who = i ∧ m.event = e ∧ own i o = older := by
  induction log generalizing newer with
  | nil => simp at h
  | cons m log ih =>
    by_cases hm : m.who = i
    · obtain ⟨_, e', s⟩ := m
      obtain rfl : _ = i := hm
      rw [own_cons_self] at h
      cases newer with
      | nil =>
        obtain ⟨rfl, rfl⟩ := List.cons.inj h
        exact ⟨[], _, log, rfl, rfl, rfl, rfl⟩
      | cons x newer =>
        obtain ⟨n, m, o, rfl, hw, he, ho⟩ := ih (List.cons.inj h).2
        exact ⟨_ :: n, m, o, rfl, hw, he, ho⟩
    · obtain ⟨j, e', s⟩ := m
      rw [own_cons_ne hm] at h
      obtain ⟨n, m, o, rfl, hw, he, ho⟩ := ih h
      exact ⟨_ :: n, m, o, rfl, hw, he, ho⟩

theorem own_append (i : ι) (l l' : List (Move I ι σ)) : own i (l ++ l') = own i l ++ own i l' := by
  simp [own]

end Own

/-- Of two moves of a record, one is the earlier, or they are the same. -/
theorem eq_or_earlier {I : Interface} {ι σ : Type} {log : List (Move I ι σ)} {m m' : Move I ι σ}
    (hm : m ∈ log) (hm' : m' ∈ log) :
    m = m' ∨ (∃ n o, log = n ++ m :: o ∧ m' ∈ o) ∨ ∃ n o, log = n ++ m' :: o ∧ m ∈ o := by
  induction log with
  | nil => cases hm
  | cons x log ih =>
    rcases List.mem_cons.mp hm with rfl | hmem
    · rcases List.mem_cons.mp hm' with rfl | hmem'
      · exact .inl rfl
      · exact .inr (.inl ⟨[], log, rfl, hmem'⟩)
    · rcases List.mem_cons.mp hm' with rfl | hmem'
      · exact .inr (.inr ⟨[], log, rfl, hmem⟩)
      · rcases ih hmem hmem' with heq | ⟨n, o, rfl, ho⟩ | ⟨n, o, rfl, ho⟩
        · exact .inl heq
        · exact .inr (.inl ⟨x :: n, o, rfl, ho⟩)
        · exact .inr (.inr ⟨x :: n, o, rfl, ho⟩)

/-- A stamp that occurs once in a record is on one move. -/
theorem eq_of_stamp {I : Interface} {ι σ κ : Type} {f : Move I ι σ → Option κ} {log : List (Move I ι σ)}
    (h : (log.filterMap f).Nodup) {m m' : Move I ι σ} (hm : m ∈ log) (hm' : m' ∈ log) {k : κ}
    (hk : f m = some k) (hk' : f m' = some k) : m = m' := by
  induction log with
  | nil => cases hm
  | cons x log ih =>
    have hfresh : ∀ y ∈ log, f x = some k → f y ≠ some k := by
      intro y hy hx hyk
      rw [List.filterMap_cons_some hx, List.nodup_cons] at h
      exact h.1 (List.mem_filterMap.mpr ⟨y, hy, hyk⟩)
    have hrest : (log.filterMap f).Nodup := h.sublist ((List.sublist_cons_self x log).filterMap f)
    rcases List.mem_cons.mp hm with rfl | hmem
    · rcases List.mem_cons.mp hm' with rfl | hmem'
      · rfl
      · exact absurd hk' (hfresh m' hmem' hk)
    · rcases List.mem_cons.mp hm' with rfl | hmem'
      · exact absurd hk (hfresh m hmem hk')
      · exact ih hrest hmem hmem'

/-- **What is used once after it is drawn is used once in the run**: distinct draws, and between a
draw and its use by the same program no other use. -/
theorem nodup_used {I : Interface} {ι σ κ : Type} [DecidableEq ι]
    {drawn : Event I → Option κ} (used : Event I → Option κ) (hdisjoint : ∀ e k, used e = some k → drawn e = none)
    {log : List (Move I ι σ)} (hdrawn : (log.filterMap fun m => drawn m.event).Nodup)
    (huse : ∀ newer m older k, log = newer ++ m :: older → used m.event = some k →
      ∃ h d h', own m.who older = h ++ d :: h' ∧ drawn d = some k ∧ ∀ e ∈ h, used e = none) :
    (log.filterMap fun m => used m.event).Nodup := by
  induction log with
  | nil => exact List.nodup_nil
  | cons m log ih =>
    have hrest : (log.filterMap fun m => used m.event).Nodup :=
      ih (hdrawn.sublist ((List.sublist_cons_self m log).filterMap _)) fun newer m' older k hl =>
        huse (m :: newer) m' older k (congrArg (m :: ·) hl)
    cases hk : used m.event with
    | none =>
      have hskip := List.filterMap_cons_none (f := fun m : Move I ι σ => used m.event) (l := log) hk
      rwa [hskip]
    | some k =>
      have hkeep := List.filterMap_cons_some (f := fun m : Move I ι σ => used m.event) (l := log) hk
      rw [hkeep, List.nodup_cons]
      refine ⟨fun hmem => ?_, hrest⟩
      -- an earlier use of `k` has its own draw, and the draw of `m` comes after it
      obtain ⟨m', hm', hk'⟩ := List.mem_filterMap.mp hmem
      obtain ⟨n, o, rfl⟩ := List.append_of_mem hm'
      obtain ⟨h, d, h', hown, hd, hunused⟩ := huse [] m (n ++ m' :: o) k rfl hk
      obtain ⟨g, d', g', hown', hd', -⟩ := huse (m :: n) m' o k rfl hk'
      obtain ⟨x', hx', hwho', rfl⟩ := mem_own.mp (hown' ▸ List.mem_append_right g List.mem_cons_self)
      obtain ⟨x, hx, hwho, rfl⟩ := mem_own.mp (hown ▸ List.mem_append_right h List.mem_cons_self)
      have hdraws : (List.filterMap (fun m => drawn m.event) (n ++ m' :: o)).Nodup :=
        hdrawn.sublist ((List.sublist_cons_self m _).filterMap _)
      have hxx : x = x' := eq_of_stamp hdraws hx
        (List.mem_append_right n (List.mem_cons_of_mem m' hx')) hd hd'
      obtain ⟨j, e', s'⟩ := m'
      obtain rfl : j = m.who := by rw [← hwho, hxx, hwho']
      have hsplit : own m.who n ++ e' :: own m.who o = h ++ x.event :: h' := by
        rw [← hown, own_append, own_cons_self]
      have hne : e' ≠ x.event := by
        intro heq
        have hnone := hdisjoint e' k hk'
        rw [heq, hd] at hnone
        cases hnone
      have hnewer : x.event ∈ own m.who n := by
        rcases List.append_eq_append_iff.mp hsplit with ⟨c, rfl, hc⟩ | ⟨c, hc, hc'⟩
        · cases c with
          | nil => exact absurd (List.cons.inj hc).1 hne
          | cons y c =>
            obtain ⟨rfl, -⟩ := List.cons.inj hc
            have hnone := hunused e' (List.mem_append_right _ List.mem_cons_self)
            rw [hk'] at hnone
            cases hnone
        · cases c with
          | nil => exact absurd (List.cons.inj hc').1.symm hne
          | cons y c =>
            obtain ⟨rfl, -⟩ := List.cons.inj hc'
            rw [hc]
            exact List.mem_append_right _ List.mem_cons_self
      obtain ⟨y, hy, -, hye⟩ := mem_own.mp hnewer
      rw [List.filterMap_append, List.nodup_append] at hdraws
      refine hdraws.2.2 k (List.mem_filterMap.mpr ⟨y, hy, by rw [hye, hd]⟩) k ?_ rfl
      exact List.mem_filterMap.mpr ⟨x', List.mem_cons_of_mem _ hx', hd'⟩

/-- A shared state, the programs running on it, and the moves made so far, newest first. -/
structure Config (I : Interface) (ε α ι σ : Type) where
  state : σ
  threads : ι → Program I ε α
  log : List (Move I ι σ)

namespace Config

variable {I : Interface} {ε α ι σ τ : Type} [DecidableEq ι]
variable (H : Handler I σ) (env : τ → σ → σ)

/-- The programs at the beginning of a run. -/
def start (s : σ) (p : ι → Program I ε α) : Config I ε α ι σ :=
  ⟨s, p, []⟩

/-- The program `i` makes the request `q` and continues with `k`. -/
def advance (c : Config I ε α ι σ) (i : ι) (q : I.Request) (k : I.Reply q → Program I ε α) :
    Config I ε α ι σ where
  state := (H q c.state).2
  threads := Function.update c.threads i (k (H q c.state).1)
  log := ⟨i, ⟨q, (H q c.state).1⟩, c.state⟩ :: c.log

/-- One entry of a schedule: a program makes its next request (if it has not ended), or the
surroundings act. -/
def play (c : Config I ε α ι σ) : ι ⊕ τ → Config I ε α ι σ
  | .inl i =>
    match c.threads i with
    | .ask q k => c.advance H i q k
    | _ => c
  | .inr t => { c with state := env t c.state }

/-- A whole schedule, in order. -/
def run (c : Config I ε α ι σ) (l : List (ι ⊕ τ)) : Config I ε α ι σ :=
  l.foldl (play H env) c

@[simp] theorem run_nil (c : Config I ε α ι σ) : c.run H env [] = c := rfl

theorem run_snoc (c : Config I ε α ι σ) (l : List (ι ⊕ τ)) (x : ι ⊕ τ) :
    c.run H env (l ++ [x]) = (c.run H env l).play H env x := by
  simp [run]

/-- The three ways one entry goes: a request, an ended program, an act of the surroundings. -/
theorem play_cases (c : Config I ε α ι σ) (x : ι ⊕ τ) :
    (∃ i q k, x = .inl i ∧ c.threads i = .ask q k ∧ c.play H env x = c.advance H i q k) ∨
    (∃ i, x = .inl i ∧ c.play H env x = c) ∨
    (∃ t, x = .inr t ∧ c.play H env x = { c with state := env t c.state }) := by
  cases x with
  | inr t => exact .inr (.inr ⟨t, rfl, rfl⟩)
  | inl i =>
    cases hi : c.threads i with
    | ask q k => exact .inl ⟨i, q, k, rfl, hi, by simp only [play, hi]⟩
    | pure a => exact .inr (.inl ⟨i, rfl, by simp only [play, hi]⟩)
    | throw e => exact .inr (.inl ⟨i, rfl, by simp only [play, hi]⟩)

variable {H env}

/-- **Induction along a run**: what the start has, and every request and every act of the
surroundings keep, holds after every schedule. -/
theorem run_induction {J : Config I ε α ι σ → Prop} {c₀ : Config I ε α ι σ} (h0 : J c₀)
    (hmove : ∀ c i q k, J c → c.threads i = .ask q k → J (c.advance H i q k))
    (henv : ∀ c t, J c → J { c with state := env t c.state }) (l : List (ι ⊕ τ)) :
    J (c₀.run H env l) := by
  induction l using List.reverseRecOn with
  | nil => exact h0
  | append_singleton l x ih =>
    rw [run_snoc]
    rcases play_cases H env (c₀.run H env l) x with
      ⟨i, q, k, rfl, hi, hp⟩ | ⟨i, rfl, hp⟩ | ⟨t, rfl, hp⟩
    · rw [hp]
      exact hmove _ i q k ih hi
    · rw [hp]
      exact ih
    · rw [hp]
      exact henv _ t ih

section Contracts

variable {C : ι → Contract I} {Q : ι → List (Event I) → Except ε α → Prop}

/-- Every program keeps its contract from its own history on. -/
def Kept (C : ι → Contract I) (Q : ι → List (Event I) → Except ε α → Prop)
    (c : Config I ε α ι σ) : Prop :=
  ∀ i, (c.threads i).Keeps (C i) (Q i) (own i c.log)

theorem Kept.advance {c : Config I ε α ι σ} (hc : c.Kept C Q) (hrely : ∀ i h e, (C i).rely h e)
    {i : ι} {q : I.Request} {k : I.Reply q → Program I ε α} (hi : c.threads i = .ask q k) :
    (C i).guarantee (own i c.log) ⟨q, (H q c.state).1⟩ ∧ (c.advance H i q k).Kept C Q := by
  have hki := hc i
  rw [hi] at hki
  obtain ⟨hg, hk⟩ := hki _ (hrely i _ _)
  refine ⟨hg, fun j => ?_⟩
  by_cases hj : j = i
  · subst hj
    simp only [Config.advance, Function.update_self]
    rw [own_cons_self]
    exact hk
  · simp only [Config.advance, Function.update_of_ne hj]
    rw [own_cons_ne (fun h => hj h.symm)]
    exact hc j

/-- **Every program still keeps its contract**, after every schedule. -/
theorem run_keeps {s : σ} {p : ι → Program I ε α} (hp : ∀ i, (p i).Keeps (C i) (Q i) [])
    (hrely : ∀ i h e, (C i).rely h e) (l : List (ι ⊕ τ)) :
    ((start s p).run H env l).Kept C Q := by
  have hstart : (start (σ := σ) s p).Kept C Q := hp
  exact run_induction hstart (fun _ _ _ _ hc hi => (hc.advance hrely hi).2) (fun _ _ hc => hc) l

/-- A program that has ended did so with its conclusion. -/
theorem run_outcome {s : σ} {p : ι → Program I ε α} (hp : ∀ i, (p i).Keeps (C i) (Q i) [])
    (hrely : ∀ i h e, (C i).rely h e) (l : List (ι ⊕ τ)) {i : ι} {a : α}
    (ha : ((start s p).run H env l).threads i = .pure a) :
    Q i (own i ((start s p).run H env l).log) (.ok a) := by
  have hk : ((start s p).run H env l).Kept C Q := run_keeps hp hrely l
  have hi := hk i
  rwa [ha] at hi

/-- **Invariants of state and record**: what holds at the start, and is kept by every guaranteed
move and by the surroundings, holds after every schedule. -/
theorem run_invariant {J : σ → List (Move I ι σ) → Prop} {s : σ} {p : ι → Program I ε α}
    (hp : ∀ i, (p i).Keeps (C i) (Q i) []) (hrely : ∀ i h e, (C i).rely h e) (h0 : J s [])
    (hmove : ∀ s log i q, J s log → (C i).guarantee (own i log) ⟨q, (H q s).1⟩ →
      J (H q s).2 (⟨i, ⟨q, (H q s).1⟩, s⟩ :: log))
    (henv : ∀ s log t, J s log → J (env t s) log) (l : List (ι ⊕ τ)) :
    J ((start s p).run H env l).state ((start s p).run H env l).log := by
  have hstart : (start s p).Kept C Q ∧ J (start s p).state (start s p).log := ⟨hp, h0⟩
  refine (run_induction (J := fun c => c.Kept C Q ∧ J c.state c.log) hstart ?_ ?_ l).2
  · rintro c i q k ⟨hk, hJ⟩ hi
    obtain ⟨hg, hk'⟩ := hk.advance hrely hi
    exact ⟨hk', hmove _ _ _ _ hJ hg⟩
  · rintro c t ⟨hk, hJ⟩
    exact ⟨hk, henv _ _ t hJ⟩

/-- Every move of a record is guaranteed, after the history of its program before it. -/
def Guaranteed (C : ι → Contract I) (log : List (Move I ι σ)) : Prop :=
  ∀ newer m older, log = newer ++ m :: older → (C m.who).guarantee (own m.who older) m.event

theorem Guaranteed.nil : Guaranteed C ([] : List (Move I ι σ)) := by
  intro newer m older h
  simp at h

theorem Guaranteed.cons {log : List (Move I ι σ)} (hlog : Guaranteed C log) {m : Move I ι σ}
    (hm : (C m.who).guarantee (own m.who log) m.event) : Guaranteed C (m :: log) := by
  intro newer m' older h
  cases newer with
  | nil =>
    obtain ⟨rfl, rfl⟩ := List.cons.inj h
    exact hm
  | cons x newer =>
    obtain ⟨rfl, hrest⟩ := List.cons.inj h
    exact hlog newer m' older hrest

/-- **Invariants from the guarantees of the whole record**: a move may rely on every move before
it. -/
theorem run_invariant_of_record {J : σ → List (Move I ι σ) → Prop} {s : σ}
    {p : ι → Program I ε α} (hp : ∀ i, (p i).Keeps (C i) (Q i) [])
    (hrely : ∀ i h e, (C i).rely h e) (h0 : J s [])
    (hmove : ∀ s log i q, J s log → Guaranteed C (⟨i, ⟨q, (H q s).1⟩, s⟩ :: log) →
      J (H q s).2 (⟨i, ⟨q, (H q s).1⟩, s⟩ :: log))
    (henv : ∀ s log t, J s log → J (env t s) log) (l : List (ι ⊕ τ)) :
    J ((start s p).run H env l).state ((start s p).run H env l).log := by
  refine (run_invariant (J := fun s log => Guaranteed C log ∧ J s log) hp hrely
    ⟨Guaranteed.nil, h0⟩ ?_ ?_ l).2
  · rintro s log i q ⟨hlog, hJ⟩ hg
    have hlog' : Guaranteed C (⟨i, ⟨q, (H q s).1⟩, s⟩ :: log) := hlog.cons hg
    exact ⟨hlog', hmove s log i q hJ hlog'⟩
  · rintro s log t ⟨hlog, hJ⟩
    exact ⟨hlog, henv s log t hJ⟩

/-- **Every recorded move is guaranteed**, after the history of its program before it. -/
theorem run_guaranteed {s : σ} {p : ι → Program I ε α} (hp : ∀ i, (p i).Keeps (C i) (Q i) [])
    (hrely : ∀ i h e, (C i).rely h e) (l : List (ι ⊕ τ)) :
    Guaranteed C ((start s p).run H env l).log :=
  run_invariant_of_record (J := fun _ log => Guaranteed C log) hp hrely Guaranteed.nil
    (fun _ _ _ _ _ hlog => hlog) (fun _ _ _ hlog => hlog) l

end Contracts

/-- **Every recorded move was made by a shorter schedule**, from the state recorded with it, and
its reply is the handler's. -/
theorem run_log_split {s : σ} {p : ι → Program I ε α} (l : List (ι ⊕ τ))
    {newer older : List (Move I ι σ)} {m : Move I ι σ}
    (hl : ((start s p).run H env l).log = newer ++ m :: older) :
    ∃ l' k, l' <+: l ∧ ((start s p).run H env l').log = older ∧
      ((start s p).run H env l').state = m.before ∧
      ((start s p).run H env l').threads m.who = .ask m.event.request k ∧
      m.event.reply = (H m.event.request m.before).1 := by
  induction l using List.reverseRecOn generalizing newer with
  | nil => simp [start] at hl
  | append_singleton l x ih =>
    rw [run_snoc] at hl
    have lift : (∃ newer', ((start s p).run H env l).log = newer' ++ m :: older) →
        ∃ l' k, l' <+: l ++ [x] ∧ ((start s p).run H env l').log = older ∧
          ((start s p).run H env l').state = m.before ∧
          ((start s p).run H env l').threads m.who = .ask m.event.request k ∧
          m.event.reply = (H m.event.request m.before).1 := by
      rintro ⟨newer', hn⟩
      obtain ⟨l', k, hpre, hrest⟩ := ih hn
      exact ⟨l', k, hpre.trans (List.prefix_append _ _), hrest⟩
    rcases play_cases H env ((start s p).run H env l) x with
      ⟨i, q, k, rfl, hi, hp⟩ | ⟨i, rfl, hp⟩ | ⟨t, rfl, hp⟩
    · rw [hp] at hl
      cases newer with
      | nil =>
        simp only [advance, List.nil_append, List.cons.injEq] at hl
        obtain ⟨rfl, rfl⟩ := hl
        exact ⟨l, k, List.prefix_append _ _, rfl, rfl, hi, rfl⟩
      | cons m' newer =>
        simp only [advance, List.cons_append, List.cons.injEq] at hl
        exact lift ⟨newer, hl.2⟩
    · rw [hp] at hl
      exact lift ⟨newer, hl⟩
    · rw [hp] at hl
      exact lift ⟨newer, hl⟩

/-- **Something that has become true since a move** became true by a later one, when the
surroundings do not make it true. -/
theorem run_flip {P : σ → Prop} (hP : ∀ t s, P (env t s) → P s) {s : σ} {p : ι → Program I ε α}
    (l : List (ι ⊕ τ)) {since older : List (Move I ι σ)} {m : Move I ι σ}
    (hl : ((start s p).run H env l).log = since ++ m :: older)
    (hbefore : ¬P (H m.event.request m.before).2) (hnow : P ((start s p).run H env l).state) :
    ∃ newer, ∃ x : Move I ι σ, ∃ between, since = newer ++ x :: between ∧ ¬P x.before ∧
      P (H x.event.request x.before).2 := by
  have hstart : ∀ since (m : Move I ι σ) older, (start s p).log = since ++ m :: older →
      ¬P (H m.event.request m.before).2 → P (start s p).state →
        ∃ newer, ∃ x : Move I ι σ, ∃ between, since = newer ++ x :: between ∧ ¬P x.before ∧
          P (H x.event.request x.before).2 := by
    intro since m older hl
    simp [start] at hl
  refine run_induction
    (J := fun c => ∀ since (m : Move I ι σ) older, c.log = since ++ m :: older →
      ¬P (H m.event.request m.before).2 → P c.state →
      ∃ newer, ∃ x : Move I ι σ, ∃ between, since = newer ++ x :: between ∧ ¬P x.before ∧
        P (H x.event.request x.before).2) hstart ?_ ?_ l since m older hl hbefore hnow
  · intro c i q k ih _ since m older hl hbefore hnow
    cases since with
    | nil =>
      obtain ⟨rfl, -⟩ := List.cons.inj hl
      exact absurd hnow hbefore
    | cons x since =>
      obtain ⟨rfl, hrest⟩ := List.cons.inj hl
      by_cases hs : P c.state
      · obtain ⟨newer, y, between, rfl, hy⟩ := ih since m older hrest hbefore hs
        exact ⟨_ :: newer, y, between, rfl, hy⟩
      · exact ⟨[], _, since, rfl, hs, hnow⟩
  · intro c t ih since m older hl hbefore hnow
    exact ih since m older hl hbefore (hP t c.state hnow)

end Config

end Interaction
