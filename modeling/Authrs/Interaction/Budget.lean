import Authrs.Interaction.Condition
import Mathlib.Data.Finset.Card

/-!
# Budgets of attempts

A counter limits how often something is tried: a program reads it, goes on if it is below the
limit, and counts an attempt by a later request. Between the reading and the counting other
programs may read the counter too, so the limit is not the number of attempts. It is, as long as
every reading leaves room for the attempts that are under way.

## Main definitions

* `Budget`: how the counter of one row is read, counted and created
* `Budget.Open`, `Budget.Due`: an attempt under way, and one that is about to be counted
* `Budget.Spare`: a reading leaves room for the attempts under way
* `Budget.Within`: the attempts counted and about to be counted stay within the limit

## Main results

* `Budget.reads_tally`: a reading shows how many attempts have been counted
* `Budget.run_within`: the budget holds in the runs whose readings leave room
-/

namespace Interaction

/-- The counter of a row: what a program reads of it, which requests count an attempt and create
the row, the limit below which a reading allows an attempt, and the value at which the counter
stops. -/
structure Budget (I : Interface) (ι σ : Type) where
  counter : σ → Option Nat
  reading : ι → Event I → Option Nat
  counts : I.Request → Bool
  creates : I.Request → Bool
  limit : Nat
  cap : Nat

namespace Budget

variable {I : Interface} {ε α ι σ τ : Type} [DecidableEq ι] (B : Budget I ι σ)

/-- The value of the counter at the beginning, if the row is there. -/
def start (s : σ) : Nat := (B.counter s).getD 0

/-- The attempts counted in a record. -/
def counted (log : List (Move I ι σ)) : Nat := log.countP fun m => B.counts m.event.request

/-- **An attempt under way**: a program that is still running has read a counter below the limit
and has counted nothing. -/
structure Open (c : Config I ε α ι σ) (i : ι) : Prop where
  read : ∃ e ∈ own i c.log, ∃ a < B.limit, B.reading i e = some a
  uncounted : ∀ e ∈ own i c.log, B.counts e.request = false
  running : c.Running i

/-- An attempt about to be counted. -/
def Due (c : Config I ε α ι σ) (i : ι) : Prop :=
  ∃ q k, c.threads i = .ask q k ∧ B.counts q = true

omit [DecidableEq ι] in
/-- An attempt is about to be counted when the next request counts it. -/
theorem due_of_next {c : Config I ε α ι σ} {i : ι}
    (h : ((c.threads i).next.map B.counts) = some true) : B.Due c i := by
  cases hi : c.threads i with
  | ask q k =>
    rw [hi] at h
    exact ⟨q, k, hi, Option.some.inj h⟩
  | pure a =>
    rw [hi] at h
    cases h
  | throw e =>
    rw [hi] at h
    cases h

/-- **A reading leaves room** for the attempts under way. -/
def Spare (H : Handler I σ) (c : Config I ε α ι σ) (i : ι) (q : I.Request) : Prop :=
  ∀ a < B.limit, B.reading i ⟨q, (H q c.state).1⟩ = some a →
    ∀ js : Finset ι, (∀ j ∈ js, j ≠ i ∧ B.Open c j) → a + js.card < B.limit

/-- **The budget**: the attempts counted and about to be counted are within the limit. -/
def Within (start : Nat) (c : Config I ε α ι σ) : Prop :=
  ∀ js : Finset ι, (∀ j ∈ js, B.Due c j) → start + B.counted c.log + js.card ≤ max start B.limit

/-- What a program has done before it counts: it has read the counter, and counted nothing. -/
def Allowed (i : ι) (h : List (Event I)) (e : Event I) : Prop :=
  B.counts e.request = true →
    (∃ e' ∈ h, ∃ a < B.limit, B.reading i e' = some a) ∧ ∀ e' ∈ h, B.counts e'.request = false

/-- How the requests treat the counter. -/
structure Lawful (H : Handler I σ) (env : τ → σ → σ) : Prop where
  reads : ∀ i q s a, B.reading i ⟨q, (H q s).1⟩ = some a →
    B.counter s = some a ∧ B.counts q = false
  steps : ∀ q s b, B.counter (H q s).2 = some b →
    (∃ a, B.counter s = some a ∧
      (B.counts q = false ∧ b = a ∨ B.counts q = true ∧ b = a + 1 ∨ b = a ∧ B.cap ≤ a)) ∨
    (B.creates q = true ∧ B.counts q = false ∧ b = 0)
  passes : ∀ t s b, B.counter (env t s) = some b → B.counter s = some b

variable {B} in
/-- **Few attempts leave room**: the counter and the programs that have a turn do not add up to more
than the limit. -/
theorem eachTurn_spare {H : Handler I σ} {env : τ → σ → σ} (hB : B.Lawful H env) {s : σ}
    {p : ι → Program I ε α} {l : List (ι ⊕ τ)} (W : Finset ι) (hW : ∀ i, .inl i ∈ l → i ∈ W) {n : Nat}
    (hn : n + W.card ≤ B.limit) (hcounter : ∀ l' ∈ l.inits, ∀ a,
      B.counter ((Config.start s p).run H env l').state = some a → a ≤ n) :
    Config.EachTurn H env (B.Spare H) (Config.start s p) l := by
  intro l' i q k hl' hi a hlt hread js hjs
  have hstart := (List.prefix_append _ _).trans hl'
  have hle : a ≤ n :=
    hcounter l' ((List.mem_inits _ _).mpr hstart) a (hB.reads i q _ a hread).1
  have hiW : i ∈ W := hW i (hl'.subset (List.mem_append_right _ (List.mem_singleton_self _)))
  have hsub : js ⊆ W.erase i := by
    intro j hj
    obtain ⟨hne, hopen⟩ := hjs j hj
    obtain ⟨e, he, -⟩ := hopen.read
    obtain ⟨m, hm, rfl, -⟩ := mem_own.mp he
    exact Finset.mem_erase.mpr ⟨hne, hW _ (hstart.subset (Config.who_mem hm))⟩
  have hcard := Finset.card_le_card hsub
  rw [Finset.card_erase_of_mem hiW] at hcard
  have hpos : 0 < W.card := Finset.card_pos.mpr ⟨i, hiW⟩
  omega

/-- **The row is created once**, and not at all if it is there at the beginning. -/
def CreatedOnce (s : σ) (log : List (Move I ι σ)) : Prop :=
  ∀ newer m older, log = newer ++ m :: older → B.creates m.event.request = true →
    B.counter s = none ∧ ∀ x ∈ older, B.creates x.event.request = false

variable {B} {H : Handler I σ} {env : τ → σ → σ} {s₀ : σ}

/-- The row was there at the beginning, or has been created. -/
def Known (B : Budget I ι σ) (s₀ : σ) (log : List (Move I ι σ)) : Prop :=
  (∃ a, B.counter s₀ = some a) ∨ ∃ m ∈ log, B.creates m.event.request = true

/-- What the record says about the counter. -/
structure Tally (B : Budget I ι σ) (s₀ s : σ) (log : List (Move I ι σ)) : Prop where
  value : ∀ a, B.counter s = some a → a = B.start s₀ + B.counted log ∨ B.cap ≤ a
  present : ∀ a, B.counter s = some a → B.Known s₀ log
  read : ∀ m ∈ log, ∀ i a, B.reading i m.event = some a → B.Known s₀ log
  counted : 0 < B.counted log → ∃ m ∈ log, ∃ i a, B.reading i m.event = some a

section Tally

variable {s : σ} {log : List (Move I ι σ)}

omit [DecidableEq ι] in
theorem counted_cons (B : Budget I ι σ) (m : Move I ι σ) (log : List (Move I ι σ)) :
    B.counted (m :: log) = B.counted log + if B.counts m.event.request = true then 1 else 0 :=
  List.countP_cons

omit [DecidableEq ι] in
theorem Known.cons (h : B.Known s₀ log) (m : Move I ι σ) : B.Known s₀ (m :: log) :=
  h.imp_right fun ⟨x, hx, hc⟩ => ⟨x, List.mem_cons_of_mem _ hx, hc⟩

omit [DecidableEq ι] in
theorem Tally.nil (B : Budget I ι σ) (s₀ : σ) : B.Tally s₀ s₀ [] where
  value a ha := by simp [start, Budget.counted, ha]
  present a ha := .inl ⟨a, ha⟩
  read m hm := by cases hm
  counted h := by simp [Budget.counted] at h

/-- **Every request keeps the tally.** -/
theorem Tally.move (hB : B.Lawful H env) (ht : B.Tally s₀ s log) {i : ι} {q : I.Request}
    (hallowed : B.Allowed i (own i log) ⟨q, (H q s).1⟩)
    (honce : B.CreatedOnce s₀ (⟨i, ⟨q, (H q s).1⟩, s⟩ :: log)) :
    B.Tally s₀ (H q s).2 (⟨i, ⟨q, (H q s).1⟩, s⟩ :: log) := by
  -- The row is known once a request has created it.
  have hcreated : B.creates q = true → B.Known s₀ (⟨i, ⟨q, (H q s).1⟩, s⟩ :: log) :=
    fun hq => .inr ⟨_, List.mem_cons_self, hq⟩
  constructor
  · intro b hb
    rw [counted_cons]
    rcases hB.steps q s b hb with ⟨a, ha, hba⟩ | ⟨hq, hcounts, rfl⟩
    · have hvalue := ht.value a ha
      rcases hba with ⟨hcounts, rfl⟩ | ⟨hcounts, rfl⟩ | ⟨rfl, hcap⟩
      · simpa [hcounts] using hvalue
      · simp only [hcounts, if_true]
        omega
      · exact .inr hcap
    · -- The row is new: nobody can have read it, or counted an attempt.
      obtain ⟨hnone, hfresh⟩ := honce [] _ log rfl hq
      have hunknown : ¬ B.Known s₀ log := by
        rintro (⟨a, ha⟩ | ⟨x, hx, hxc⟩)
        · rw [hnone] at ha
          cases ha
        · rw [hfresh x hx] at hxc
          cases hxc
      have hzero : B.counted log = 0 := by
        by_contra hne
        obtain ⟨x, hx, j, a, ha⟩ := ht.counted (Nat.pos_of_ne_zero hne)
        exact hunknown (ht.read x hx j a ha)
      simp [start, hnone, hzero, hcounts]
  · intro b hb
    rcases hB.steps q s b hb with ⟨a, ha, -⟩ | ⟨hq, -, -⟩
    · exact (ht.present a ha).cons _
    · exact hcreated hq
  · intro m hm j a ha
    rcases List.mem_cons.mp hm with rfl | hm
    · exact (ht.present a (hB.reads j q s a ha).1).cons _
    · exact (ht.read m hm j a ha).cons _
  · intro hpos
    by_cases hcounts : B.counts q = true
    · obtain ⟨⟨e, he, a, -, ha⟩, -⟩ := hallowed hcounts
      obtain ⟨x, hx, -, rfl⟩ := mem_own.mp he
      exact ⟨x, List.mem_cons_of_mem _ hx, i, a, ha⟩
    · rw [counted_cons, if_neg hcounts] at hpos
      obtain ⟨x, hx, hread⟩ := ht.counted hpos
      exact ⟨x, List.mem_cons_of_mem _ hx, hread⟩

omit [DecidableEq ι] in
theorem Tally.pass (hB : B.Lawful H env) (ht : B.Tally s₀ s log) (t : τ) :
    B.Tally s₀ (env t s) log where
  value a ha := ht.value a (hB.passes t s a ha)
  present a ha := ht.present a (hB.passes t s a ha)
  read := ht.read
  counted := ht.counted

end Tally

section Runs

variable {C : ι → Contract I} {Q : ι → List (Event I) → Except ε α → Prop}
  {p : ι → Program I ε α} {l : List (ι ⊕ τ)}

omit [DecidableEq ι] in
/-- A record whose row is created once. -/
theorem CreatedOnce.of_suffix (newer : List (Move I ι σ)) {log : List (Move I ι σ)}
    (h : B.CreatedOnce s₀ (newer ++ log)) : B.CreatedOnce s₀ log := by
  rintro n m o rfl hm
  exact h (newer ++ n) m o (by simp) hm

/-- **The record of every run tallies with the counter.** -/
theorem run_tally (hB : B.Lawful H env) (hp : ∀ i, (p i).Keeps (C i) (Q i) [])
    (hrely : ∀ i h e, (C i).rely h e) (hC : ∀ i h e, (C i).guarantee h e → B.Allowed i h e)
    (l : List (ι ⊕ τ)) (honce : B.CreatedOnce s₀ ((Config.start s₀ p).run H env l).log) :
    B.Tally s₀ ((Config.start s₀ p).run H env l).state ((Config.start s₀ p).run H env l).log := by
  refine Config.run_invariant (J := fun s log => B.CreatedOnce s₀ log → B.Tally s₀ s log) hp hrely
    (fun _ => .nil B s₀) ?_ ?_ l honce
  · intro s log i q ht hg honce
    exact (ht (.of_suffix [_] honce)).move hB (hC i _ _ hg) honce
  · intro s log t ht honce
    exact (ht honce).pass hB t

/-- The attempts counted and under way are within the limit. -/
def Spaced (B : Budget I ι σ) (start : Nat) (c : Config I ε α ι σ) : Prop :=
  ∀ js : Finset ι, (∀ j ∈ js, B.Open c j) → start + B.counted c.log + js.card ≤ max start B.limit

/-- An attempt about to be counted is under way. -/
theorem Due.isOpen (H : Handler I σ) {c : Config I ε α ι σ} (hk : c.Kept C Q)
    (hrely : ∀ i h e, (C i).rely h e) (hC : ∀ i h e, (C i).guarantee h e → B.Allowed i h e)
    {i : ι} (hd : B.Due c i) : B.Open c i := by
  obtain ⟨q, k, hi, hq⟩ := hd
  obtain ⟨hg, -⟩ := hk.advance (H := H) hrely hi
  obtain ⟨hread, hun⟩ := hC i _ _ hg hq
  exact ⟨hread, hun, q, k, hi⟩

/-- **A request keeps the attempts within the limit**, if its reading leaves room. -/
theorem Spaced.advance (hB : B.Lawful H env) {c : Config I ε α ι σ}
    (hs : B.Spaced (B.start s₀) c) (htally : B.Tally s₀ c.state c.log) (hcap : B.limit ≤ B.cap)
    {i : ι} {q : I.Request} {k : I.Reply q → Program I ε α} (hi : c.threads i = .ask q k)
    (hallowed : B.Allowed i (own i c.log) ⟨q, (H q c.state).1⟩) (hspare : B.Spare H c i q) :
    B.Spaced (B.start s₀) (c.advance H i q k) := by
  intro js hjs
  -- The others are where they were.
  have hothers : ∀ j ∈ js, j ≠ i → B.Open c j := by
    intro j hj hne
    obtain ⟨hread, hun, hrun⟩ := hjs j hj
    rw [Config.own_advance_ne hne] at hread hun
    obtain ⟨q', k', hj'⟩ := hrun
    rw [Config.threads_advance_ne hne] at hj'
    exact ⟨hread, hun, q', k', hj'⟩
  change _ + B.counted (_ :: c.log) + _ ≤ _
  rw [counted_cons]
  by_cases hq : B.counts q = true
  · -- The attempt was under way, and is counted now.
    have hi' : i ∉ js := by
      intro hmem
      have hun := (hjs i hmem).uncounted
      rw [Config.own_advance_self] at hun
      rw [hun _ List.mem_cons_self] at hq
      cases hq
    obtain ⟨hread, hun⟩ := hallowed hq
    have hinsert := hs (insert i js) ?_
    · rw [Finset.card_insert_of_notMem hi'] at hinsert
      rw [if_pos hq]
      omega
    · intro j hj
      rcases Finset.mem_insert.mp hj with rfl | hj
      · exact ⟨hread, hun, q, k, hi⟩
      · exact hothers j hj fun h => hi' (h ▸ hj)
  · rw [if_neg hq]
    by_cases hnew : ∃ a < B.limit, B.reading i ⟨q, (H q c.state).1⟩ = some a
    · -- The reading shows the attempts counted, and leaves room for those under way.
      obtain ⟨a, hlt, ha⟩ := hnew
      have hvalue := htally.value a (hB.reads i q c.state a ha).1
      have hroom := hspare a hlt ha (js.erase i) ?_
      · have hcard := Finset.pred_card_le_card_erase (s := js) (a := i)
        omega
      · intro j hj
        obtain ⟨hne, hmem⟩ := Finset.mem_erase.mp hj
        exact ⟨hne, hothers j hmem hne⟩
    · -- Whoever is under way now was so before.
      refine hs js fun j hj => ?_
      by_cases hji : j = i
      · subst hji
        obtain ⟨⟨e, he, a, hlt, ha⟩, hun, -⟩ := hjs j hj
        rw [Config.own_advance_self] at he hun
        refine ⟨?_, fun e' he' => hun e' (List.mem_cons_of_mem _ he'), q, k, hi⟩
        rcases List.mem_cons.mp he with rfl | he
        · exact absurd ⟨a, hlt, ha⟩ hnew
        · exact ⟨e, he, a, hlt, ha⟩
      · exact hothers j hj hji

/-- **The budget holds in every state** of the runs whose readings leave room for the attempts
under way. -/
theorem run_within (hB : B.Lawful H env) (hcap : B.limit ≤ B.cap)
    (hp : ∀ i, (p i).Keeps (C i) (Q i) []) (hrely : ∀ i h e, (C i).rely h e)
    (hC : ∀ i h e, (C i).guarantee h e → B.Allowed i h e)
    {l l' : List (ι ⊕ τ)} (honce : B.CreatedOnce s₀ ((Config.start s₀ p).run H env l).log)
    (hspare : Config.EachTurn H env (B.Spare H) (Config.start s₀ p) l)
    (hl : l' <+: l) : B.Within (B.start s₀) ((Config.start s₀ p).run H env l') := by
  have htally : Config.EachTurn H env (fun c _ _ => B.Tally s₀ c.state c.log)
      (Config.start s₀ p) l' := by
    intro l'' i q k hl'' _
    refine run_tally hB hp hrely hC l'' ?_
    have hstart : l'' <+: l := (List.prefix_append _ _).trans (hl''.trans hl)
    obtain ⟨newer, hnewer⟩ := Config.log_suffix H env (Config.start s₀ p) hstart
    exact .of_suffix newer (hnewer ▸ honce)
  have hstart : B.Spaced (B.start s₀) (Config.start s₀ p) := by
    intro js hjs
    have hempty : js = ∅ := by
      refine Finset.eq_empty_of_forall_notMem fun j hj => ?_
      obtain ⟨⟨e, he, -⟩, -, -⟩ := hjs j hj
      cases he
    simp [hempty, Budget.counted, Config.start]
  have hend : ((Config.start s₀ p).run H env l').Kept C Q ∧
      B.Spaced (B.start s₀) ((Config.start s₀ p).run H env l') := by
    have hkept : (Config.start s₀ p).Kept C Q := hp
    refine Config.run_turns (J := fun c => c.Kept C Q ∧ B.Spaced (B.start s₀) c)
      ⟨hkept, hstart⟩ ?_ ?_ ((hspare.initial hl).and htally)
    · rintro c i q k ⟨hkept, hspaced⟩ hi ⟨hroom, htally⟩
      obtain ⟨hg, hkept'⟩ := hkept.advance (H := H) hrely hi
      exact ⟨hkept', hspaced.advance hB htally hcap hi (hC i _ _ hg) hroom⟩
    · rintro c t ⟨hkept, hspaced⟩
      refine ⟨hkept, fun js hjs => hspaced js fun j hj => ?_⟩
      obtain ⟨hread, hun, hrun⟩ := hjs j hj
      exact ⟨hread, hun, hrun⟩
  intro js hjs
  exact hend.2 js fun j hj => (hjs j hj).isOpen H hend.1 hrely hC

end Runs

end Budget

end Interaction
