import Authrs.Interaction.Program

/-!
# Contracts on a program's exchanges

What a program does against surroundings that it does not control is said about its own history:
the exchanges it has made so far, newest first. A contract relies on something about every reply
and guarantees something about every request, each read off the history before it. A program that
keeps a contract keeps it under every run that supplies replies of the relied-on kind, alone or
among others, since its requests depend on the replies and on nothing else.

## Main definitions

* `Contract I`: what is relied on and what is guaranteed at each exchange
* `Program.Keeps C Q h p`: after the history `h`, the program `p` keeps `C` and ends with `Q`
* `Program.Asks S p`: every request of `p` is in `S`, whatever the replies
* `Program.OnOk N`, `Program.OnEnd M N`: a conclusion about the value returned, and one about a
  failure
* `Program.Ran es o`: the program made exactly the exchanges `es` and ended with `o`

## Main results

* `Program.keeps_bind`, `Program.Keeps.bind_ok`: a composed program keeps a contract part by part
* `Program.Keeps.mono`, `Program.Keeps.frame`: weaker contracts, and facts no exchange destroys
* `Program.Keeps.after`: a kept contract is kept after any history
* `Program.Keeps.exec`: a kept contract holds of the program run alone
-/

namespace Interaction

/-- What is relied on, and what is guaranteed, at an exchange after a history. -/
structure Contract (I : Interface) where
  rely : List (Event I) → Event I → Prop
  guarantee : List (Event I) → Event I → Prop

namespace Contract

variable {I : Interface}

/-- The contract that guarantees `G` and relies on nothing. -/
def ofGuarantee (G : List (Event I) → Event I → Prop) : Contract I :=
  ⟨fun _ _ => True, G⟩

/-- The contract `C` of a part that starts after the history `h₀`. -/
def after (C : Contract I) (h₀ : List (Event I)) : Contract I where
  rely h e := ∀ g, h = g ++ h₀ → C.rely g e
  guarantee h e := ∃ g, h = g ++ h₀ ∧ C.guarantee g e

/-- Both contracts. -/
def both (C C' : Contract I) : Contract I where
  rely h e := C.rely h e ∧ C'.rely h e
  guarantee h e := C.guarantee h e ∧ C'.guarantee h e

end Contract

/-- A fact about histories that no further exchange destroys. -/
def Lasting {I : Interface} (M : List (Event I) → Prop) : Prop :=
  ∀ h e, M h → M (e :: h)

theorem lasting_mem {I : Interface} (p : Event I → Prop) : Lasting fun h => ∃ e ∈ h, p e :=
  fun _ _ ⟨e, he, hp⟩ => ⟨e, List.mem_cons_of_mem _ he, hp⟩

theorem Lasting.append {I : Interface} {M : List (Event I) → Prop} (hM : Lasting M)
    {h : List (Event I)} (hh : M h) : ∀ es, M (es ++ h)
  | [] => hh
  | e :: es => hM _ e (Lasting.append hM hh es)

namespace Program

variable {I : Interface} {ε δ α β : Type} {C C' : Contract I}

/-- **Keeping a contract**: after the history `h`, every request is guaranteed, and every outcome
satisfies `Q`, as long as the replies are the ones relied on. -/
def Keeps (C : Contract I) (Q : List (Event I) → Except ε α → Prop) :
    List (Event I) → Program I ε α → Prop
  | h, .pure a => Q h (.ok a)
  | h, .throw e => Q h (.error e)
  | h, .ask q k =>
    ∀ r, C.rely h ⟨q, r⟩ → C.guarantee h ⟨q, r⟩ ∧ (k r).Keeps C Q (⟨q, r⟩ :: h)

variable {Q Q' : List (Event I) → Except ε α → Prop} {h : List (Event I)}

@[simp] theorem keeps_pure (a : α) : (pure a : Program I ε α).Keeps C Q h ↔ Q h (.ok a) := Iff.rfl

@[simp] theorem keeps_throw (e : ε) :
    (throw e : Program I ε α).Keeps C Q h ↔ Q h (.error e) := Iff.rfl

theorem keeps_ask (q : I.Request) (k : I.Reply q → Program I ε α) :
    (ask q k).Keeps C Q h ↔
      ∀ r, C.rely h ⟨q, r⟩ → C.guarantee h ⟨q, r⟩ ∧ (k r).Keeps C Q (⟨q, r⟩ :: h) := Iff.rfl

/-- **A composed program keeps a contract part by part**: the second part starts from the history
the first one leaves. -/
theorem keeps_bind {Q : List (Event I) → Except ε β → Prop} (p : Program I ε α)
    (f : α → Program I ε β) : (p.bind f).Keeps C Q h ↔
      p.Keeps C (fun h' o => match o with
        | .ok a => (f a).Keeps C Q h'
        | .error e => Q h' (.error e)) h := by
  induction p generalizing h with
  | pure a => exact Iff.rfl
  | throw e => exact Iff.rfl
  | ask q k ih =>
    simp only [ask_bind, keeps_ask]
    exact forall_congr' fun r => imp_congr_right fun _ => and_congr_right fun _ => ih r

theorem keeps_okOr (o : Option α) (e : ε) :
    (okOr o e : Program I ε α).Keeps C Q h ↔
      (∀ a, o = some a → Q h (.ok a)) ∧ (o = none → Q h (.error e)) := by
  cases o <;> simp

theorem keeps_ensure {Q : List (Event I) → Except ε Unit → Prop} (c : Prop) [Decidable c] (e : ε) :
    (ensure c e : Program I ε Unit).Keeps C Q h ↔
      (c → Q h (.ok ())) ∧ (¬c → Q h (.error e)) := by
  by_cases hc : c <;> simp [ensure, hc]

theorem keeps_ofExcept (o : Except ε α) :
    (ofExcept o : Program I ε α).Keeps C Q h ↔ Q h o := by
  cases o <;> exact Iff.rfl

/-- A weaker contract, a weaker conclusion. -/
theorem Keeps.mono {p : Program I ε α} (hp : p.Keeps C Q h)
    (hrely : ∀ h e, C'.rely h e → C.rely h e)
    (hguar : ∀ h e, C'.rely h e → C.guarantee h e → C'.guarantee h e)
    (hQ : ∀ h o, Q h o → Q' h o) : p.Keeps C' Q' h := by
  induction p generalizing h with
  | pure a => exact hQ _ _ hp
  | throw e => exact hQ _ _ hp
  | ask q k ih =>
    intro r hr
    obtain ⟨hg, hk⟩ := hp r (hrely _ _ hr)
    exact ⟨hguar _ _ hr hg, ih r hk⟩

theorem Keeps.weaken {p : Program I ε α} (hp : p.Keeps C Q h)
    (hQ : ∀ h o, Q h o → Q' h o) : p.Keeps C Q' h :=
  hp.mono (fun _ _ => id) (fun _ _ _ => id) hQ

/-- A program that keeps two contracts keeps both. -/
theorem Keeps.both {p : Program I ε α} (hp : p.Keeps C Q h) (hp' : p.Keeps C' Q' h) :
    p.Keeps (C.both C') (fun h' o => Q h' o ∧ Q' h' o) h := by
  induction p generalizing h with
  | pure a => exact ⟨hp, hp'⟩
  | throw e => exact ⟨hp, hp'⟩
  | ask q k ih =>
    rintro r ⟨hr, hr'⟩
    obtain ⟨hg, hk⟩ := hp r hr
    obtain ⟨hg', hk'⟩ := hp' r hr'
    exact ⟨⟨hg, hg'⟩, ih r hk hk'⟩

/-- A program keeps its contract after any history. -/
theorem Keeps.after {p : Program I ε α} (hp : p.Keeps C Q h) (h₀ : List (Event I)) :
    p.Keeps (C.after h₀) (fun h' o => ∃ g, h' = g ++ h₀ ∧ Q g o) (h ++ h₀) := by
  induction p generalizing h with
  | pure a => exact ⟨h, rfl, hp⟩
  | throw e => exact ⟨h, rfl, hp⟩
  | ask q k ih =>
    intro r hr
    obtain ⟨hg, hk⟩ := hp r (hr h rfl)
    exact ⟨⟨h, rfl, hg⟩, ih r hk⟩

/-- **Framing**: what holds of the history and lasts still holds at the end. -/
theorem Keeps.frame {M : List (Event I) → Prop} (hM : Lasting M) {p : Program I ε α}
    (hp : p.Keeps C Q h) (hh : M h) : p.Keeps C (fun h' o => Q h' o ∧ M h') h := by
  induction p generalizing h with
  | pure a => exact ⟨hp, hh⟩
  | throw e => exact ⟨hp, hh⟩
  | ask q k ih =>
    intro r hr
    obtain ⟨hg, hk⟩ := hp r hr
    exact ⟨hg, ih r hk (hM _ _ hh)⟩

/-- Every request of `p` is in `S`, whatever the replies. -/
def Asks (S : I.Request → Prop) : Program I ε α → Prop
  | .pure _ => True
  | .throw _ => True
  | .ask q k => S q ∧ ∀ r, (k r).Asks S

variable {S S' : I.Request → Prop}

@[simp] theorem asks_pure (a : α) : (pure a : Program I ε α).Asks S := trivial

@[simp] theorem asks_throw (e : ε) : (throw e : Program I ε α).Asks S := trivial

@[simp] theorem asks_request (q : I.Request) : (request q : Program I ε _).Asks S ↔ S q :=
  ⟨And.left, fun h => ⟨h, fun _ => trivial⟩⟩

/-- Every program asks something. -/
theorem Asks.all (p : Program I ε α) : p.Asks fun _ => True := by
  induction p with
  | pure a => trivial
  | throw e => trivial
  | ask q k ih => exact ⟨trivial, ih⟩

theorem Asks.bind {p : Program I ε α} {f : α → Program I ε β} (hp : p.Asks S)
    (hf : ∀ a, (f a).Asks S) : (p.bind f).Asks S := by
  induction p with
  | pure a => exact hf a
  | throw e => trivial
  | ask q k ih => exact ⟨hp.1, fun r => ih r (hp.2 r)⟩

@[simp] theorem asks_okOr (o : Option α) (e : ε) : (okOr o e : Program I ε α).Asks S := by
  cases o <;> trivial

@[simp] theorem asks_ensure (c : Prop) [Decidable c] (e : ε) :
    (ensure c e : Program I ε Unit).Asks S := by
  by_cases hc : c <;> simp [ensure, hc]

@[simp] theorem asks_ofExcept (o : Except ε α) : (ofExcept o : Program I ε α).Asks S := by
  cases o <;> trivial

theorem Asks.toExcept {p : Program I ε α} (recoverable : ε → Option δ) (hp : p.Asks S) :
    (p.toExcept recoverable).Asks S := by
  induction p with
  | pure a => trivial
  | throw e =>
    rw [Program.toExcept]
    cases recoverable e <;> trivial
  | ask q k ih => exact ⟨hp.1, fun r => ih r (hp.2 r)⟩

theorem Asks.mono {p : Program I ε α} (hp : p.Asks S) (hS : ∀ q, S q → S' q) : p.Asks S' := by
  induction p with
  | pure a => trivial
  | throw e => trivial
  | ask q k ih => exact ⟨hS _ hp.1, fun r => ih r (hp.2 r)⟩

/-- A program whose requests are all harmless keeps the contract and adds only such requests. -/
theorem Asks.keeps {p : Program I ε α} (hp : p.Asks S)
    (hS : ∀ h e, S e.request → C.guarantee h e) :
    p.Keeps C (fun h' _ => ∃ es, h' = es ++ h ∧ ∀ e ∈ es, S e.request) h := by
  induction p generalizing h with
  | pure a => exact ⟨[], rfl, by simp⟩
  | throw e => exact ⟨[], rfl, by simp⟩
  | ask q k ih =>
    intro r _
    refine ⟨hS _ _ hp.1, (ih r (hp.2 r)).weaken ?_⟩
    rintro h' o ⟨es, rfl, hes⟩
    refine ⟨es ++ [⟨q, r⟩], by simp, fun e he => ?_⟩
    rcases List.mem_append.mp he with he | he
    · exact hes e he
    · rw [List.mem_singleton.mp he]
      exact hp.1

/-- A program whose requests keep `M`, and are guaranteed wherever `M` holds, keeps the contract
and `M`. -/
theorem Asks.keeps_inv {M : List (Event I) → Prop} {p : Program I ε α} (hp : p.Asks S)
    (hM : ∀ h e, M h → S e.request → C.guarantee h e ∧ M (e :: h)) (hh : M h) :
    p.Keeps C (fun h' _ => M h') h := by
  induction p generalizing h with
  | pure a => exact hh
  | throw e => exact hh
  | ask q k ih =>
    intro r _
    obtain ⟨hg, hM'⟩ := hM h ⟨q, r⟩ hh hp.1
    exact ⟨hg, ih r (hp.2 r) hM'⟩

/-! ### Conclusions about the value returned -/

/-- The conclusion `N` about a value returned; a failure concludes nothing. -/
def OnOk (N : α → List (Event I) → Prop) (h : List (Event I)) : Except ε α → Prop
  | .ok a => N a h
  | .error _ => True

section OnOk

variable {N : α → List (Event I) → Prop} {N' : β → List (Event I) → Prop}

theorem lasting_subset (h : List (Event I)) : Lasting (h ⊆ ·) :=
  fun _ _ hsub => List.subset_cons_of_subset _ hsub

/-- **Sequencing**: the second part starts from a history that extends the one before, and from
what the first part concludes about its value. -/
theorem Keeps.bind_ok {p : Program I ε α} {f : α → Program I ε β} (hp : p.Keeps C (OnOk N) h)
    (hf : ∀ a h', h ⊆ h' → N a h' → (f a).Keeps C (OnOk N') h') :
    (p.bind f).Keeps C (OnOk N') h := by
  rw [keeps_bind]
  refine (hp.frame (lasting_subset h) (List.Subset.refl h)).weaken ?_
  rintro h' (e | a) ⟨hN, hsub⟩
  · trivial
  · exact hf a h' hsub hN

theorem Keeps.weaken_ok {N' : α → List (Event I) → Prop} {p : Program I ε α}
    (hp : p.Keeps C (OnOk N) h) (hN : ∀ a h', h ⊆ h' → N a h' → N' a h') :
    p.Keeps C (OnOk N') h := by
  refine (hp.frame (lasting_subset h) (List.Subset.refl h)).weaken ?_
  rintro h' (e | a) ⟨hN', hsub⟩
  · trivial
  · exact hN a h' hsub hN'

theorem Keeps.onOk {M : List (Event I) → Prop} {p : Program I ε α}
    (hp : p.Keeps C (fun h' _ => M h') h) : p.Keeps C (OnOk fun _ h' => M h') h := by
  refine hp.weaken fun h' o hM => ?_
  cases o with
  | ok a => exact hM
  | error e => trivial

/-- The conclusion `N` about a value returned, and `M` about a failure. -/
def OnEnd (M : List (Event I) → Prop) (N : α → List (Event I) → Prop) (h : List (Event I)) :
    Except ε α → Prop
  | .ok a => N a h
  | .error _ => M h

/-- **Sequencing**, with a conclusion about failures too. -/
theorem Keeps.bind_end {M : List (Event I) → Prop} {p : Program I ε α} {f : α → Program I ε β}
    (hp : p.Keeps C (OnEnd M N) h) (hf : ∀ a h', N a h' → (f a).Keeps C (OnEnd M N') h') :
    (p.bind f).Keeps C (OnEnd M N') h := by
  rw [keeps_bind]
  refine hp.weaken ?_
  rintro h' (e | a) hN
  · exact hN
  · exact hf a h' hN

theorem keeps_okOr_ok (o : Option α) (e : ε) :
    (okOr o e : Program I ε α).Keeps C (OnOk fun a h' => o = some a ∧ h' = h) h := by
  cases o with
  | none => trivial
  | some a => exact ⟨rfl, rfl⟩

theorem keeps_ensure_ok (c : Prop) [Decidable c] (e : ε) :
    (ensure c e : Program I ε Unit).Keeps C (OnOk fun _ h' => c ∧ h' = h) h := by
  rw [keeps_ensure]
  exact ⟨fun hc => ⟨hc, rfl⟩, fun _ => trivial⟩

theorem keeps_ofExcept_ok (o : Except ε α) :
    (ofExcept o : Program I ε α).Keeps C (OnOk fun a h' => o = .ok a ∧ h' = h) h := by
  cases o with
  | ok a => exact ⟨rfl, rfl⟩
  | error e => trivial

end OnOk

/-! ### Parts that ran -/

/-- The program makes exactly these requests, in order, and ends with this outcome. -/
def Ran : Program I ε α → List (Event I) → Except ε α → Prop
  | .pure a, [], o => o = .ok a
  | .throw e, [], o => o = .error e
  | .ask q k, e :: es, o => ∃ r, e = ⟨q, r⟩ ∧ (k r).Ran es o
  | _, _, _ => False

/-- What a program adds to the history is a run of it. -/
theorem Keeps.ran {p : Program I ε α} (hp : p.Keeps C Q h) :
    p.Keeps C (fun h' o => Q h' o ∧ ∃ es, h' = es.reverse ++ h ∧ p.Ran es o) h := by
  induction p generalizing h with
  | pure a => exact ⟨hp, [], rfl, rfl⟩
  | throw e => exact ⟨hp, [], rfl, rfl⟩
  | ask q k ih =>
    intro r hr
    obtain ⟨hg, hk⟩ := hp r hr
    refine ⟨hg, (ih r hk).weaken ?_⟩
    rintro h' o ⟨hQ, es, rfl, hran⟩
    exact ⟨hQ, ⟨q, r⟩ :: es, by simp, r, rfl, hran⟩

/-- The exchanges of a run are ones the program asks for. -/
theorem Asks.ran {S : I.Request → Prop} {p : Program I ε α} {es : List (Event I)}
    {o : Except ε α} (hp : p.Asks S) (hran : p.Ran es o) : ∀ e ∈ es, S e.request := by
  induction p generalizing es with
  | pure a =>
    cases es with
    | nil => simp
    | cons => cases hran
  | throw e =>
    cases es with
    | nil => simp
    | cons => cases hran
  | ask q k ih =>
    cases es with
    | nil => cases hran
    | cons e es =>
      obtain ⟨r, rfl, hrest⟩ := hran
      exact List.forall_mem_cons.mpr ⟨hp.1, ih r (hp.2 r) hrest⟩

/-- A run of two programs in a row is a run of each. -/
theorem ran_bind_ok {p : Program I ε α} {k : α → Program I ε β} {es : List (Event I)} {b : β} :
    (p >>= k).Ran es (.ok b) ↔
      ∃ es₁ es₂ a, es = es₁ ++ es₂ ∧ p.Ran es₁ (.ok a) ∧ (k a).Ran es₂ (.ok b) := by
  rw [bind_eq]
  induction p generalizing es with
  | pure a =>
    constructor
    · intro h
      exact ⟨[], es, a, rfl, rfl, h⟩
    · rintro ⟨es₁, es₂, a', rfl, ha, h⟩
      cases es₁ with
      | nil =>
        cases ha
        exact h
      | cons => cases ha
  | throw e =>
    constructor
    · intro h
      cases es <;> cases h
    · rintro ⟨es₁, es₂, a, rfl, ha, -⟩
      cases es₁ <;> cases ha
  | ask q k' ih =>
    cases es with
    | nil =>
      constructor
      · intro h
        cases h
      · rintro ⟨es₁, es₂, a, hes, ha, -⟩
        obtain ⟨rfl, rfl⟩ := List.append_eq_nil_iff.mp hes.symm
        cases ha
    | cons e es =>
      constructor
      · rintro ⟨r, rfl, h⟩
        obtain ⟨es₁, es₂, a, rfl, ha, hb⟩ := (ih r).mp h
        exact ⟨⟨q, r⟩ :: es₁, es₂, a, rfl, ⟨r, rfl, ha⟩, hb⟩
      · rintro ⟨es₁, es₂, a, hes, ha, hb⟩
        cases es₁ with
        | nil => cases ha
        | cons e' es₁ =>
          obtain ⟨rfl, rfl⟩ := List.cons.inj hes
          obtain ⟨r, rfl, ha⟩ := ha
          exact ⟨r, rfl, (ih r).mpr ⟨es₁, es₂, a, rfl, ha, hb⟩⟩

theorem ran_pure_ok {es : List (Event I)} {a b : α} :
    (Program.pure a : Program I ε α).Ran es (.ok b) ↔ es = [] ∧ a = b := by
  constructor
  · intro h
    cases es with
    | nil => exact ⟨rfl, (Except.ok.inj h).symm⟩
    | cons => cases h
  · rintro ⟨rfl, rfl⟩
    rfl

theorem ran_ofExcept_ok {o : Except ε α} {es : List (Event I)} {a : α} :
    (Program.ofExcept o : Program I ε α).Ran es (.ok a) ↔ es = [] ∧ o = .ok a := by
  constructor
  · intro h
    cases o with
    | ok b =>
      obtain ⟨rfl, rfl⟩ := ran_pure_ok.mp h
      exact ⟨rfl, rfl⟩
    | error e => cases es <;> cases h
  · rintro ⟨rfl, rfl⟩
    rfl

section Alone

variable {σ : Type} (H : Handler I σ)

/-- The exchanges of a program run alone after the history `h`, newest first. -/
def histories (h : List (Event I)) : List (Event I × σ) → List (Event I)
  | [] => h
  | m :: ms => histories (m.1 :: h) ms

/-- Every exchange of the run satisfies `P`, given the history before it and the state. -/
def AllAlong (P : List (Event I) → Event I → σ → Prop) :
    List (Event I) → List (Event I × σ) → Prop
  | _, [] => True
  | h, m :: ms => P h m.1 m.2 ∧ AllAlong P (m.1 :: h) ms

/-- **A kept contract holds of the program run alone**, exchange by exchange and at the end. -/
theorem Keeps.exec {p : Program I ε α} {s : σ} (hp : p.Keeps C Q h)
    (hrely : AllAlong (fun h e _ => C.rely h e) h (p.trace H s)) :
    AllAlong (fun h e _ => C.guarantee h e) h (p.trace H s) ∧
      Q (histories h (p.trace H s)) (p.exec H s).1 := by
  induction p generalizing h s with
  | pure a => exact ⟨trivial, hp⟩
  | throw e => exact ⟨trivial, hp⟩
  | ask q k ih =>
    obtain ⟨hr, hrest⟩ := hrely
    obtain ⟨hg, hk⟩ := hp _ hr
    exact ⟨⟨hg, (ih _ hk hrest).1⟩, (ih _ hk hrest).2⟩

end Alone

end Program

end Interaction
