import Authrs.Interaction.Condition

/-!
# Readings that are held

A program reads something, acts on it later, and releases it after that, while other programs do
the same. Nothing holds the requests together: what a reading allows is done once if no program
reads while another one still holds what it has read.

## Main definitions

* `Holding`: a program that has read, has not released, and is still running
* `Lease`: what is read, what a reading allows, and what ends it
* `Lease.Alone`: a program reads while nobody else holds
* `Lease.ActsOnce`: what a reading allows is done once

## Main results

* `Holding.of_advance`: a holder after a request held before it, or reads by it
* `Lease.run_actsOnce`: what a reading allows is done once in the runs whose readings are taken
  alone
-/

namespace Interaction

variable {I : Interface} {ε α ι σ τ : Type} [DecidableEq ι]

/-- **A holder** has read, has not released, and is still running. -/
structure Holding (reads : Event I → Prop) (releases : I.Request → Prop)
    (c : Config I ε α ι σ) (i : ι) : Prop where
  read : ∃ e ∈ own i c.log, reads e
  unreleased : ∀ e ∈ own i c.log, ¬ releases e.request
  running : c.Running i

section Holding

variable {reads : Event I → Prop} {releases : I.Request → Prop} {c : Config I ε α ι σ}
  {H : Handler I σ} {i j : ι} {q : I.Request} {k : I.Reply q → Program I ε α}

/-- The others hold what they held. -/
theorem holding_advance_ne (h : j ≠ i) :
    Holding reads releases (c.advance H i q k) j ↔ Holding reads releases c j := by
  constructor
  · rintro ⟨hread, hun, q', k', hj⟩
    rw [Config.own_advance_ne h] at hread hun
    rw [Config.threads_advance_ne h] at hj
    exact ⟨hread, hun, q', k', hj⟩
  · rintro ⟨hread, hun, q', k', hj⟩
    rw [← Config.own_advance_ne (H := H) h q k] at hread hun
    rw [← Config.threads_advance_ne (H := H) h q k] at hj
    exact ⟨hread, hun, q', k', hj⟩

/-- A holder after a request held before it, or reads by it. -/
theorem Holding.of_advance (hi : c.threads i = .ask q k)
    (h : Holding reads releases (c.advance H i q k) j) :
    Holding reads releases c j ∨ j = i ∧ reads ⟨q, (H q c.state).1⟩ := by
  by_cases hji : j = i
  · subst hji
    obtain ⟨⟨e, he, hread⟩, hun, -⟩ := h
    rw [Config.own_advance_self] at he hun
    rcases List.mem_cons.mp he with rfl | he
    · exact .inr ⟨rfl, hread⟩
    · exact .inl ⟨⟨e, he, hread⟩, fun e' he' => hun e' (List.mem_cons_of_mem _ he'), q, k, hi⟩
  · exact .inl ((holding_advance_ne hji).mp h)

theorem not_holding_start (s : σ) (p : ι → Program I ε α) :
    ¬ Holding reads releases (Config.start s p) i := by
  rintro ⟨⟨e, he, -⟩, -, -⟩
  cases he

/-- Who makes a releasing request holds nothing after it. -/
theorem not_holding_of_releases (hq : releases q) :
    ¬ Holding reads releases (c.advance H i q k) i := by
  rintro ⟨-, hun, -⟩
  rw [Config.own_advance_self] at hun
  exact hun _ List.mem_cons_self hq

end Holding

/-- What a program reads, what it does on its reading and what releases it, and whether there is
something to read. -/
structure Lease (I : Interface) (ι σ : Type) where
  reads : ι → Event I → Prop
  acts : ι → Event I → Prop
  releases : I.Request → Prop
  present : σ → Prop

namespace Lease

variable (L : Lease I ι σ)

/-- A holder of the lease. -/
abbrev Holds (c : Config I ε α ι σ) (i : ι) : Prop := Holding (L.reads i) L.releases c i

/-- **A reading is taken alone.** -/
def Alone (H : Handler I σ) (c : Config I ε α ι σ) (i : ι) (q : I.Request) : Prop :=
  L.reads i ⟨q, (H q c.state).1⟩ → ∀ j, j ≠ i → ¬ L.Holds c j

omit [DecidableEq ι] in
/-- **What a reading allows is done once** in a record. -/
def ActsOnce (log : List (Move I ι σ)) : Prop :=
  ∀ newer (m : Move I ι σ) older, log = newer ++ m :: older → L.acts m.who m.event →
    ∀ x ∈ older, ¬ L.acts x.who x.event

omit [DecidableEq ι] in
/-- A request does not bring back what has been released. -/
def Stays (H : Handler I σ) (c : Config I ε α ι σ) (q : I.Request) : Prop :=
  L.present (H q c.state).2 → L.present c.state

omit [DecidableEq ι] in
/-- What a program does: it acts once, between a reading and the release. -/
def Follows (i : ι) (h : List (Event I)) (e : Event I) : Prop :=
  L.acts i e → (∃ e' ∈ h, L.reads i e') ∧
    (∀ e' ∈ h, ¬ L.releases e'.request) ∧ ∀ e' ∈ h, ¬ L.acts i e'

omit [DecidableEq ι] in
/-- A program that has acted releases before it ends. -/
def Settled (i : ι) (h : List (Event I)) : Prop :=
  (∃ e ∈ h, L.acts i e) → ∃ e ∈ h, L.releases e.request

omit [DecidableEq ι] in
/-- How the requests treat what is read. -/
structure Lawful (H : Handler I σ) (env : τ → σ → σ) : Prop where
  reads : ∀ i q s, L.reads i ⟨q, (H q s).1⟩ → L.present s
  released : ∀ q s, L.releases q → ¬ L.present (H q s).2
  passes : ∀ t s, L.present (env t s) → L.present s

/-- There is one holder at a time. -/
def Unique (c : Config I ε α ι σ) : Prop :=
  ∀ i j, L.Holds c i → L.Holds c j → i = j

/-- Who has acted still holds, or there is nothing left to read and nobody who holds. -/
def Spent (c : Config I ε α ι σ) : Prop :=
  ∀ m ∈ c.log, L.acts m.who m.event →
    L.Holds c m.who ∨ (¬ L.present c.state ∧ ∀ j, ¬ L.Holds c j)

variable {L} {H : Handler I σ} {env : τ → σ → σ} {c : Config I ε α ι σ} {s₀ : σ}
  {C : ι → Contract I} {Q : ι → List (Event I) → Except ε α → Prop}
  {i : ι} {q : I.Request} {k : I.Reply q → Program I ε α}

omit [DecidableEq ι] in
/-- All that is done is done by one program. -/
theorem ActsOnce.who_eq {log : List (Move I ι σ)} (h : L.ActsOnce log) {m m' : Move I ι σ}
    (hm : m ∈ log) (hm' : m' ∈ log) (hact : L.acts m.who m.event)
    (hact' : L.acts m'.who m'.event) : m.who = m'.who := by
  rcases eq_or_earlier hm hm' with rfl | ⟨n, o, hlog, hmem⟩ | ⟨n, o, hlog, hmem⟩
  · rfl
  · exact absurd hact' (h n m o hlog hact m' hmem)
  · exact absurd hact (h n m' o hlog hact' m hmem)

/-- A request keeps the holder unique, if a reading is taken alone. -/
theorem Unique.advance (hu : L.Unique c) (hi : c.threads i = .ask q k)
    (halone : L.Alone H c i q) : L.Unique (c.advance H i q k) := by
  intro j j' hj hj'
  rcases hj.of_advance hi with hold | ⟨hji, hread⟩
  · rcases hj'.of_advance hi with hold' | ⟨hji', hread'⟩
    · exact hu j j' hold hold'
    · subst hji'
      by_contra hne
      exact halone hread' j hne hold
  · subst hji
    rcases hj'.of_advance hi with hold' | ⟨hji', -⟩
    · by_contra hne
      exact halone hread j' (fun h => hne h.symm) hold'
    · exact hji'.symm

/-- Who has acted and not released is still running. -/
theorem holds_of_acted (hk : c.Kept C Q) (hQ : ∀ j h o, Q j h o → L.Settled j h) {j : ι}
    (hread : ∃ e ∈ own j c.log, L.reads j e) (hun : ∀ e ∈ own j c.log, ¬ L.releases e.request)
    (hact : ∃ e ∈ own j c.log, L.acts j e) : L.Holds c j := by
  have hend : ∀ o, Q j (own j c.log) o → False := by
    intro o ho
    obtain ⟨e, he, hrel⟩ := hQ j _ o ho hact
    exact hun e he hrel
  have hj := hk j
  refine ⟨hread, hun, ?_⟩
  cases hthread : c.threads j with
  | ask q k => exact ⟨q, k, hthread⟩
  | pure a =>
    rw [hthread] at hj
    exact (hend _ hj).elim
  | throw e =>
    rw [hthread] at hj
    exact (hend _ hj).elim

/-- **A request of who holds and has acted, or acts by it**: it still holds, or has released. -/
theorem Spent.mover (hL : L.Lawful H env) (hu : L.Unique c) (hk : (c.advance H i q k).Kept C Q)
    (hQ : ∀ j h o, Q j h o → L.Settled j h) (hhold : L.Holds c i)
    (hact : ∃ e ∈ own i (c.advance H i q k).log, L.acts i e) :
    L.Holds (c.advance H i q k) i ∨
      (¬ L.present (c.advance H i q k).state ∧ ∀ j, ¬ L.Holds (c.advance H i q k) j) := by
  by_cases hrel : L.releases q
  · refine .inr ⟨hL.released q c.state hrel, fun j hj => ?_⟩
    by_cases hji : j = i
    · subst hji
      exact not_holding_of_releases hrel hj
    · exact hji (hu j i ((holding_advance_ne hji).mp hj) hhold)
  · refine .inl (holds_of_acted hk hQ ?_ ?_ hact)
    · obtain ⟨e, he, hread⟩ := hhold.read
      rw [Config.own_advance_self]
      exact ⟨e, List.mem_cons_of_mem _ he, hread⟩
    · rw [Config.own_advance_self]
      exact List.forall_mem_cons.mpr ⟨hrel, hhold.unreleased⟩

/-- **Every request keeps what the acts have spent.** -/
theorem Spent.advance (hL : L.Lawful H env) (hs : L.Spent c) (hu : L.Unique c)
    (hk : (c.advance H i q k).Kept C Q) (hQ : ∀ j h o, Q j h o → L.Settled j h)
    (hi : c.threads i = .ask q k) (hf : L.Follows i (own i c.log) ⟨q, (H q c.state).1⟩)
    (hstays : L.Stays H c q) : L.Spent (c.advance H i q k) := by
  intro m hm hact
  have hown : ∀ j, j = m.who → ∃ e ∈ own j (c.advance H i q k).log, L.acts j e := by
    rintro j rfl
    exact ⟨m.event, mem_own.mpr ⟨m, hm, rfl, rfl⟩, hact⟩
  rcases List.mem_cons.mp hm with rfl | hm
  · -- The act is this one, of a holder.
    obtain ⟨hread, hun, -⟩ := hf hact
    exact Spent.mover hL hu hk hQ ⟨hread, hun, q, k, hi⟩ (hown i rfl)
  · rcases hs m hm hact with hhold | ⟨habsent, hnone⟩
    · by_cases hmi : m.who = i
      · rw [hmi] at hhold ⊢
        exact Spent.mover hL hu hk hQ hhold (hown i hmi.symm)
      · exact .inl ((holding_advance_ne hmi).mpr hhold)
    · refine .inr ⟨fun hpresent => habsent (hstays hpresent), fun j hj => ?_⟩
      · rcases hj.of_advance hi with hold | ⟨-, hread⟩
        · exact hnone j hold
        · exact habsent (hL.reads _ q c.state hread)

/-- Readings are taken alone when only one program reads. -/
theorem eachTurn_alone {p : ι → Program I ε α} {l : List (ι ⊕ τ)} (i₀ : ι)
    (h : ∀ m ∈ ((Config.start s₀ p).run H env l).log, L.reads m.who m.event → m.who = i₀) :
    Config.EachTurn H env (L.Alone H) (Config.start s₀ p) l := by
  intro l' i q k hl' hi hread j hne hhold
  have hsuffix := Config.log_suffix H env (Config.start s₀ p) hl'
  rw [Config.run_snoc, Config.play_ask hi] at hsuffix
  have hi₀ : i = i₀ := h _ (hsuffix.subset List.mem_cons_self) hread
  obtain ⟨e, he, hj⟩ := hhold.read
  obtain ⟨m, hm, rfl, rfl⟩ := mem_own.mp he
  exact hne ((h m (hsuffix.subset (List.mem_cons_of_mem _ hm)) hj).trans hi₀.symm)

/-- **What a reading allows is done once**, in the runs whose readings are taken alone. -/
theorem run_actsOnce (hL : L.Lawful H env) {p : ι → Program I ε α}
    (hp : ∀ i, (p i).Keeps (C i) (Q i) []) (hrely : ∀ i h e, (C i).rely h e)
    (hC : ∀ i h e, (C i).guarantee h e → L.Follows i h e)
    (hQ : ∀ j h o, Q j h o → L.Settled j h) {l : List (ι ⊕ τ)}
    (hstays : Config.EachTurn H env (fun c _ q => L.Stays H c q) (Config.start s₀ p) l)
    (halone : Config.EachTurn H env (L.Alone H) (Config.start s₀ p) l) :
    L.ActsOnce ((Config.start s₀ p).run H env l).log := by
  have hkept : (Config.start s₀ p).Kept C Q := hp
  have hstart : L.Unique (Config.start s₀ p) :=
    fun j _ hj => (not_holding_start (i := j) s₀ p hj).elim
  have hspent : L.Spent (Config.start s₀ p) := by
    intro m hm
    cases hm
  have hnone : L.ActsOnce (Config.start s₀ p).log := by
    intro newer m older hlog
    simp [Config.start] at hlog
  refine (Config.run_turns
    (J := fun c => c.Kept C Q ∧ L.Unique c ∧ L.Spent c ∧ L.ActsOnce c.log)
    ⟨hkept, hstart, hspent, hnone⟩ ?_ ?_ (halone.and hstays)).2.2.2
  · rintro c i q k ⟨hk, hu, hs, honce⟩ hi ⟨hturn, hstay⟩
    obtain ⟨hg, hk'⟩ := hk.advance (H := H) hrely hi
    have hf := hC i _ _ hg
    refine ⟨hk', hu.advance hi hturn, hs.advance hL hu hk' hQ hi hf hstay, ?_⟩
    intro newer m older hlog hact x hx
    cases newer with
    | nil =>
      -- A second act would be of the one holder, who has not acted.
      obtain ⟨rfl, rfl⟩ := List.cons.inj hlog
      intro hactx
      obtain ⟨hread, hun, hfirst⟩ := hf hact
      have hold : L.Holds c i := ⟨hread, hun, q, k, hi⟩
      rcases hs x hx hactx with holdx | ⟨-, hnone⟩
      · obtain rfl : x.who = i := hu _ _ holdx hold
        exact hfirst _ (mem_own.mpr ⟨x, hx, rfl, rfl⟩) hactx
      · exact hnone i hold
    | cons y newer =>
      obtain ⟨-, hrest⟩ := List.cons.inj hlog
      exact honce newer m older hrest hact x hx
  · rintro c t ⟨hk, hu, hs, honce⟩
    have hsame : ∀ j, L.Holds { c with state := env t c.state } j → L.Holds c j :=
      fun j hj => ⟨hj.read, hj.unreleased, hj.running⟩
    refine ⟨hk, fun i j hi hj => hu i j (hsame i hi) (hsame j hj), ?_, honce⟩
    intro m hm hact
    rcases hs m hm hact with hhold | ⟨habsent, hnone⟩
    · exact .inl ⟨hhold.read, hhold.unreleased, hhold.running⟩
    · exact .inr ⟨fun h => habsent (hL.passes t _ h), fun j hj => hnone j (hsame j hj)⟩

end Lease

end Interaction
