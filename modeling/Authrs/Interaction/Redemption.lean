import Authrs.Interaction.Holding

/-!
# Items that are redeemed

Items are issued, a program accepts one of them, does something for it, and removes it at the end.
An item issued before a redemption is never accepted afterwards, if nobody accepts another item
in the middle of a redemption, and none is left when the redeemed one is removed.

## Main definitions

* `Redemption`: how the items are accepted, issued and removed, and which may be accepted
* `Redemption.Succeeded`: what the acceptance was for is done, and the item is about to be removed
* `Redemption.Clear`: nobody is in the middle of a redemption when an item is accepted
* `Redemption.Sole`: none but items issued since are left when an item is removed
* `Redemption.Final`: nothing issued before a redemption is accepted after it

## Main results

* `Redemption.run_final`: redemptions are final in the runs that are clear and remove sole items
-/

namespace Interaction

namespace Config

variable {I : Interface} {ε α ι σ τ : Type} [DecidableEq ι]

/-- The moves of the others since the last move of a program. -/
def sinceMove (c : Config I ε α ι σ) (i : ι) : List (Move I ι σ) :=
  c.log.takeWhile fun m => m.who ≠ i

omit [DecidableEq ι] in
/-- The moves that a later configuration has recorded since an earlier one. -/
def since (c₁ c₂ : Config I ε α ι σ) : List (Move I ι σ) :=
  c₂.log.take (c₂.log.length - c₁.log.length)

omit [DecidableEq ι] in
theorem since_eq {c₁ c₂ : Config I ε α ι σ} {new : List (Move I ι σ)}
    (h : c₂.log = new ++ c₁.log) : c₁.since c₂ = new := by
  rw [since, h, List.length_append, Nat.add_sub_cancel, List.take_left]

theorem sinceMove_of_split {c : Config I ε α ι σ} {i : ι} {new older : List (Move I ι σ)}
    {m : Move I ι σ} (h : c.log = new ++ m :: older) (hm : m.who = i)
    (hnew : ∀ x ∈ new, x.who ≠ i) : c.sinceMove i = new := by
  rw [sinceMove, h, List.takeWhile_append_of_pos fun x hx => decide_eq_true (hnew x hx),
    List.takeWhile_cons_of_neg (by simp [hm]), List.append_nil]

theorem sinceMove_advance_ne {H : Handler I σ} {c : Config I ε α ι σ} {i j : ι} (h : i ≠ j)
    (q : I.Request) (k : I.Reply q → Program I ε α) :
    (c.advance H i q k).sinceMove j = ⟨i, ⟨q, (H q c.state).1⟩, c.state⟩ :: c.sinceMove j :=
  List.takeWhile_cons_of_pos (decide_eq_true h)

end Config

/-- How the items of one kind are accepted, issued and removed, and which of them may be
accepted in a state. -/
structure Redemption (I : Interface) (ι κ σ : Type) where
  accepts : ι → Event I → Option κ
  issues : Event I → Option κ
  removes : I.Request → Option κ
  usable : σ → κ → Prop

namespace Redemption

variable {I : Interface} {ε α ι κ σ τ : Type} [DecidableEq ι] (R : Redemption I ι κ σ)

/-- The items issued in a record. -/
def issued (log : List (Move I ι σ)) : List κ := log.filterMap fun m => R.issues m.event

/-- **In the middle of a redemption**: an item has been accepted, and none has been removed. -/
abbrev Holds (c : Config I ε α ι σ) (i : ι) (k : κ) : Prop :=
  Holding (fun e => R.accepts i e = some k) (fun q => (R.removes q).isSome) c i

/-- The next request of a program removes an item. -/
def Removing (c : Config I ε α ι σ) (i : ι) (k : κ) : Prop :=
  (c.threads i).next.bind R.removes = some k

/-- **A redemption has succeeded** just now: the item is about to be removed. -/
structure Succeeded (c : Config I ε α ι σ) (i : ι) (k : κ) : Prop where
  holds : R.Holds c i k
  removing : R.Removing c i k
  last : ∃ m older, c.log = m :: older ∧ m.who = i

/-- **Nobody is in the middle of a redemption** when an item is accepted, unless the item has been
issued after the redemption succeeded. -/
def Clear (H : Handler I σ) (c : Config I ε α ι σ) (i : ι) (q : I.Request) : Prop :=
  ∀ k, R.accepts i ⟨q, (H q c.state).1⟩ = some k → ∀ j k', j ≠ i → R.Holds c j k' →
    (∃ k'', R.Removing c j k'') ∧ k ∈ R.issued (c.sinceMove j)

/-- **None is left** when an item is removed, but those issued after the redemption succeeded. -/
def Sole (H : Handler I σ) (c : Config I ε α ι σ) (i : ι) (q : I.Request) : Prop :=
  ∀ k, R.removes q = some k → R.Holds c i k → ∀ k', R.usable (H q c.state).2 k' →
    k' ∈ R.issued (c.sinceMove i)

/-- **Nothing issued before a redemption is accepted after it**, and no other redemption of such
an item succeeds after it. -/
def Final (c₁ c₂ : Config I ε α ι σ) : Prop :=
  ∀ i k, R.Succeeded c₁ i k →
    (∀ m ∈ c₁.since c₂, ∀ k', R.accepts m.who m.event = some k' →
      k' ∈ R.issued (c₁.since c₂)) ∧
    ∀ j k', j ≠ i → R.Succeeded c₂ j k' → k' ∈ R.issued (c₁.since c₂)

omit [DecidableEq ι] in
/-- How the requests treat the items. -/
structure Lawful (H : Handler I σ) (env : τ → σ → σ) : Prop where
  accepts : ∀ i q s k, R.accepts i ⟨q, (H q s).1⟩ = some k → R.usable s k ∧ R.removes q = none
  stays : ∀ q s k, R.usable (H q s).2 k → R.usable s k ∨ R.issues ⟨q, (H q s).1⟩ = some k
  passes : ∀ t s k, R.usable (env t s) k → R.usable s k

/-- Of two redemptions at a time, one has succeeded, and the item of the other has been issued
since. -/
def Apart (c : Config I ε α ι σ) : Prop :=
  ∀ i j k k', i ≠ j → R.Holds c i k → R.Holds c j k' →
    ((∃ k'', R.Removing c i k'') ∧ k' ∈ R.issued (c.sinceMove i)) ∨
      (∃ k'', R.Removing c j k'') ∧ k ∈ R.issued (c.sinceMove j)

variable {R} {H : Handler I σ} {env : τ → σ → σ} {c c₁ : Config I ε α ι σ} {i j : ι}
  {q : I.Request} {f : I.Reply q → Program I ε α} {k : κ} {s₀ : σ}

omit [DecidableEq ι] in
theorem mem_issued_cons {m : Move I ι σ} {log : List (Move I ι σ)} (h : k ∈ R.issued log) :
    k ∈ R.issued (m :: log) := by
  obtain ⟨x, hx, hk⟩ := List.mem_filterMap.mp h
  exact List.mem_filterMap.mpr ⟨x, List.mem_cons_of_mem _ hx, hk⟩

omit [DecidableEq ι] in
theorem mem_issued_self {m : Move I ι σ} {log : List (Move I ι σ)}
    (h : R.issues m.event = some k) : k ∈ R.issued (m :: log) :=
  List.mem_filterMap.mpr ⟨m, List.mem_cons_self, h⟩

/-- Who is about to remove an item holds none after the request. -/
theorem not_holds_of_removing {k' : κ} (hi : c.threads i = .ask q f) (hr : R.Removing c i k) :
    ¬ R.Holds (c.advance H i q f) i k' := by
  unfold Removing at hr
  rw [hi] at hr
  have hsome : (R.removes q).isSome := Option.isSome_of_mem hr
  exact not_holding_of_releases hsome

theorem removing_advance_ne (h : j ≠ i) :
    R.Removing (c.advance H i q f) j k ↔ R.Removing c j k := by
  unfold Removing
  rw [Config.threads_advance_ne h]

/-- What has succeeded, and been overtaken by an item issued since, stays so while others move. -/
theorem overtaken_advance (h : j ≠ i)
    (hj : (∃ k'', R.Removing c j k'') ∧ k ∈ R.issued (c.sinceMove j)) :
    (∃ k'', R.Removing (c.advance H i q f) j k'') ∧
      k ∈ R.issued ((c.advance H i q f).sinceMove j) := by
  obtain ⟨⟨k'', hremoving⟩, hmem⟩ := hj
  refine ⟨⟨k'', (removing_advance_ne h).mpr hremoving⟩, ?_⟩
  rw [Config.sinceMove_advance_ne (Ne.symm h)]
  exact mem_issued_cons hmem

/-- A redemption has succeeded when its item was accepted, none has been removed, and the next
request removes it. -/
theorem Succeeded.of_next {m : Move I ι σ} {older : List (Move I ι σ)}
    (haccepts : k ∈ (own i c.log).filterMap (R.accepts i))
    (hkept : (own i c.log).all fun e => (R.removes e.request).isNone)
    (hnext : R.Removing c i k) (hlog : c.log = m :: older) (hm : m.who = i) :
    R.Succeeded c i k where
  holds := by
    refine ⟨List.mem_filterMap.mp haccepts, fun e he hsome => ?_, ?_⟩
    · have hnone := List.all_eq_true.mp hkept e he
      rw [Option.isNone_iff_eq_none] at hnone
      rw [hnone] at hsome
      cases hsome
    · unfold Removing at hnext
      cases hi : c.threads i with
      | ask q f => exact ⟨q, f, hi⟩
      | pure a =>
        rw [hi] at hnext
        cases hnext
      | throw e =>
        rw [hi] at hnext
        cases hnext
  removing := hnext
  last := ⟨m, older, hlog, hm⟩

/-- **A request keeps the redemptions apart**, if nobody is in the middle of one. -/
theorem Apart.advance (ha : R.Apart c) (hi : c.threads i = .ask q f) (hclear : R.Clear H c i q) :
    R.Apart (c.advance H i q f) := by
  have hmover : ∀ j k k', j ≠ i → R.Holds (c.advance H i q f) i k →
      R.Holds (c.advance H i q f) j k' →
      (∃ k'', R.Removing (c.advance H i q f) j k'') ∧
        k ∈ R.issued ((c.advance H i q f).sinceMove j) := by
    intro j k k' hne hhold hholdj
    have hj := (holding_advance_ne hne).mp hholdj
    rcases hhold.of_advance hi with hold | ⟨-, haccepts⟩
    · rcases ha i j k k' (Ne.symm hne) hold hj with ⟨⟨k'', hremoving⟩, -⟩ | hright
      · exact (not_holds_of_removing hi hremoving hhold).elim
      · exact overtaken_advance hne hright
    · exact overtaken_advance hne (hclear k haccepts j k' hne hj)
  intro j j' k k' hne hj hj'
  by_cases hji : j = i
  · subst hji
    exact .inr (hmover j' k k' (Ne.symm hne) hj hj')
  · by_cases hji' : j' = i
    · subst hji'
      exact .inl (hmover j k' k hji hj' hj)
    · have hold := (holding_advance_ne hji).mp hj
      have hold' := (holding_advance_ne hji').mp hj'
      rcases ha j j' k k' hne hold hold' with hleft | hright
      · exact .inl (overtaken_advance hji hleft)
      · exact .inr (overtaken_advance hji' hright)

/-- **Redemptions are apart** in the runs in which nobody accepts in the middle of one. -/
theorem run_apart {p : ι → Program I ε α} {l : List (ι ⊕ τ)}
    (hclear : Config.EachTurn H env (R.Clear H) (Config.start s₀ p) l) :
    R.Apart ((Config.start s₀ p).run H env l) := by
  have hstart : R.Apart (Config.start s₀ p) :=
    fun j _ _ _ _ hj => (not_holding_start (i := j) s₀ p hj).elim
  refine Config.run_turns (J := R.Apart) hstart (fun _ _ _ _ ha hi hc => ha.advance hi hc) ?_
    hclear
  intro c t ha j j' k k' hne hj hj'
  exact ha j j' k k' hne ⟨hj.read, hj.unreleased, hj.running⟩
    ⟨hj'.read, hj'.unreleased, hj'.running⟩

/-- What holds after a redemption has succeeded: the item is still to be removed, or every item
that may be accepted has been issued since; and so has every item accepted or held since. -/
structure After (R : Redemption I ι κ σ) (c₁ : Config I ε α ι σ) (i : ι) (k : κ)
    (c : Config I ε α ι σ) (new : List (Move I ι σ)) : Prop where
  log : c.log = new ++ c₁.log
  phase : (R.Removing c i k ∧ R.Holds c i k ∧ ∀ m ∈ new, m.who ≠ i) ∨
    ∀ k', R.usable c.state k' → k' ∈ R.issued new
  accepted : ∀ m ∈ new, ∀ k', R.accepts m.who m.event = some k' → k' ∈ R.issued new
  held : ∀ j k', j ≠ i → R.Holds c j k' →
    ((∃ k'', R.Removing c j k'') ∧ ∀ m ∈ new, m.who ≠ j) ∨ k' ∈ R.issued new

/-- When a redemption succeeds, the others have succeeded already. -/
theorem After.start (ha : R.Apart c₁) (h : R.Succeeded c₁ i k) : R.After c₁ i k c₁ [] where
  log := rfl
  phase := .inl ⟨h.removing, h.holds, by simp⟩
  accepted := by simp
  held := by
    intro j k' hne hj
    rcases ha i j k k' (Ne.symm hne) h.holds hj with ⟨-, hmem⟩ | ⟨hremoving, -⟩
    · -- Nothing has been issued since the last move, which was its own.
      obtain ⟨m, older, hlog, hm⟩ := h.last
      have hsplit : c₁.log = [] ++ m :: older := hlog
      rw [Config.sinceMove_of_split hsplit hm (by simp)] at hmem
      cases hmem
    · exact .inl ⟨hremoving, by simp⟩

/-- **Every request keeps a redemption final.** -/
theorem After.advance {new : List (Move I ι σ)} (hR : R.Lawful H env)
    (hlast : ∃ m older, c₁.log = m :: older ∧ m.who = i) (ha : R.After c₁ i k c new)
    {i' : ι} (hi : c.threads i' = .ask q f) (hclear : R.Clear H c i' q)
    (hsole : R.Sole H c i' q) :
    R.After c₁ i k (c.advance H i' q f) (⟨i', ⟨q, (H q c.state).1⟩, c.state⟩ :: new) := by
  have hsince : (∀ m ∈ new, m.who ≠ i) → c.sinceMove i = new := by
    intro hnew
    obtain ⟨m, older, hlog, hm⟩ := hlast
    exact Config.sinceMove_of_split (ha.log.trans (congrArg (new ++ ·) hlog)) hm hnew
  -- An item accepted now is one issued since.
  have haccept : ∀ k', R.accepts i' ⟨q, (H q c.state).1⟩ = some k' → k' ∈ R.issued new := by
    intro k' hk'
    rcases ha.phase with ⟨hremoving, hhold, hnew⟩ | husable
    · by_cases hii : i = i'
      · subst hii
        unfold Removing at hremoving
        rw [hi] at hremoving
        have hnone := (hR.accepts _ q c.state k' hk').2
        change R.removes q = some k at hremoving
        rw [hnone] at hremoving
        cases hremoving
      · rw [← hsince hnew]
        exact (hclear k' hk' i k hii hhold).2
    · exact husable k' (hR.accepts _ q c.state k' hk').1
  constructor
  · change _ :: c.log = _ :: new ++ c₁.log
    rw [ha.log]
    rfl
  · rcases ha.phase with ⟨hremoving, hhold, hnew⟩ | husable
    · by_cases hii : i = i'
      · -- The redeemed item goes, and no other is left.
        subst hii
        refine .inr fun k' hk' => mem_issued_cons ?_
        have hq : R.removes q = some k := by
          unfold Removing at hremoving
          rw [hi] at hremoving
          exact hremoving
        rw [← hsince hnew]
        exact hsole k hq hhold k' hk'
      · refine .inl ⟨(removing_advance_ne hii).mpr hremoving,
          (holding_advance_ne hii).mpr hhold, ?_⟩
        exact List.forall_mem_cons.mpr ⟨Ne.symm hii, hnew⟩
    · refine .inr fun k' hk' => ?_
      rcases hR.stays q c.state k' hk' with hold | hissued
      · exact mem_issued_cons (husable k' hold)
      · exact mem_issued_self hissued
  · intro m hm k' hk'
    rcases List.mem_cons.mp hm with rfl | hm
    · exact mem_issued_cons (haccept k' hk')
    · exact mem_issued_cons (ha.accepted m hm k' hk')
  · intro j k' hne hj
    by_cases hji : j = i'
    · subst hji
      rcases hj.of_advance hi with hold | ⟨-, hk'⟩
      · rcases ha.held j k' hne hold with ⟨⟨k'', hremoving⟩, -⟩ | hmem
        · exact (not_holds_of_removing hi hremoving hj).elim
        · exact .inr (mem_issued_cons hmem)
      · exact .inr (mem_issued_cons (haccept k' hk'))
    · have hold := (holding_advance_ne hji).mp hj
      rcases ha.held j k' hne hold with ⟨⟨k'', hremoving⟩, hnew⟩ | hmem
      · refine .inl ⟨⟨k'', (removing_advance_ne hji).mpr hremoving⟩, ?_⟩
        exact List.forall_mem_cons.mpr ⟨Ne.symm hji, hnew⟩
      · exact .inr (mem_issued_cons hmem)

/-- **Redemptions are final** in the runs in which nobody accepts in the middle of one, and none is
left when the redeemed item is removed. -/
theorem run_final (hR : R.Lawful H env) {p : ι → Program I ε α} {l l₁ l₂ : List (ι ⊕ τ)}
    (hclear : Config.EachTurn H env (R.Clear H) (Config.start s₀ p) l)
    (hsole : Config.EachTurn H env (R.Sole H) (Config.start s₀ p) l)
    (h₁ : l₁ <+: l₂) (h₂ : l₂ <+: l) :
    R.Final ((Config.start s₀ p).run H env l₁) ((Config.start s₀ p).run H env l₂) := by
  intro i k hsucc
  obtain ⟨rest, rfl⟩ := h₁
  have hapart := run_apart (hclear.initial ((List.prefix_append _ _).trans h₂))
  have hturns := (hclear.and hsole).initial h₂ |>.rest
  rw [Config.run_append]
  have hrun : ∃ new, R.After ((Config.start s₀ p).run H env l₁) i k
      (((Config.start s₀ p).run H env l₁).run H env rest) new := by
    refine Config.run_turns (J := fun c => ∃ new, R.After ((Config.start s₀ p).run H env l₁) i k c
      new) ⟨[], .start hapart hsucc⟩ ?_ ?_ hturns
    · rintro c i' q f ⟨new, hafter⟩ hi ⟨hc, hs⟩
      exact ⟨_, hafter.advance hR hsucc.last hi hc hs⟩
    · rintro c t ⟨new, hafter⟩
      refine ⟨new, hafter.log, ?_, hafter.accepted, ?_⟩
      · rcases hafter.phase with ⟨hremoving, hhold, hnew⟩ | husable
        · exact .inl ⟨hremoving, ⟨hhold.read, hhold.unreleased, hhold.running⟩, hnew⟩
        · exact .inr fun k' hk' => husable k' (hR.passes t _ k' hk')
      · intro j k' hne hj
        exact hafter.held j k' hne ⟨hj.read, hj.unreleased, hj.running⟩
  obtain ⟨new, hafter⟩ := hrun
  rw [Config.since_eq hafter.log]
  refine ⟨hafter.accepted, fun j k' hne hj => ?_⟩
  rcases hafter.held j k' hne hj.holds with ⟨-, hnew⟩ | hmem
  · -- Its last move is after the redemption, or it is the one that made the redemption succeed.
    obtain ⟨m, older, hlog, hm⟩ := hj.last
    obtain ⟨m₁, older₁, hlog₁, hm₁⟩ := hsucc.last
    rw [hafter.log] at hlog
    cases new with
    | nil =>
      rw [List.nil_append, hlog₁] at hlog
      obtain ⟨rfl, -⟩ := List.cons.inj hlog
      exact (hne (hm.symm.trans hm₁)).elim
    | cons x new =>
      obtain ⟨rfl, -⟩ := List.cons.inj hlog
      exact (hnew x List.mem_cons_self hm).elim
  · exact hmem

end Redemption

end Interaction
