import Authrs.Interaction.Condition
import Authrs.Packages.Atomicity

/-!
# Concurrent syncs

A sync commits its rows, lists the tables, lists the actions and then writes the schema, in steps that
other syncs can come between. A call that has listed the registry before another one commits can write
the schema after that one has, and the schema in memory is then that of an old registry.

## Main definitions

* `SyncCall.runAll`: the configuration after a schedule of calls
* `Current`: the schema in memory is that of the registry
* `WritesCurrent`: a call that writes the schema has listed the registry as it is

## Main results

* `SyncCall.keeps_program`: what a call has listed before it writes
* `run_schemaCurrent`: the schema is current when no call that has committed is still to write it
* `slowRebuild_stale`: a slow rebuild that overwrites a newer schema
-/

namespace Authrs

open Interaction Relational Schema

variable {S ι : Type} (U : CaseTable) (parseSchema : SchemaParser S) (C : Collation)

/-- **The calls of a schedule**: each entry lets one call make its next step. -/
def SyncCall.runAll [DecidableEq ι] (s : PackagesState S) (calls : ι → SyncCall) (l : List ι) :
    Config (packages S) AppError Unit ι (PackagesState S) :=
  (Config.start s fun i => (calls i).program U parseSchema).run (handlePackages C)
    (Empty.elim : Empty → PackagesState S → PackagesState S) (l.map Sum.inl)

/-- **The schema in memory is that of the registry.** -/
def Current (s : PackagesState S) : Prop :=
  parseSchema (s.registry.schemaText U C) = .ok s.schema

/-- A call has committed its rows. -/
def Committed (h : List (Event (packages S))) : Prop :=
  ∃ e ∈ h, ∃ packageId tables actions, e = ⟨.syncPackage packageId tables actions, .ok ()⟩

/-- A call has written the schema. -/
def Written (h : List (Event (packages S))) : Prop :=
  ∃ e ∈ h, ∃ schema, e = ⟨.writeSchema schema, ()⟩

/-- **A call that writes the schema has listed the registry as it is.** -/
def WritesCurrent [DecidableEq ι] (older : List (Move (packages S) ι (PackagesState S)))
    (m : Move (packages S) ι (PackagesState S)) : Prop :=
  ∀ schema, m.event.request = .writeSchema schema →
    (∀ tables, ⟨.listTables, tables⟩ ∈ own m.who older →
      tables = m.before.registry.listTables C) ∧
    ∀ actions, ⟨.listCustomActions, actions⟩ ∈ own m.who older →
      actions = m.before.registry.listCustomActions C

/-- What a call guarantees: it commits first, and writes the schema of what it has listed. -/
def syncContract : Contract (packages S) :=
  .ofGuarantee fun h e =>
    match e.request with
    | .syncPackage .. => h = []
    | .writeSchema schema => ∃ tables actions, ⟨.listTables, tables⟩ ∈ h ∧
        ⟨.listCustomActions, actions⟩ ∈ h ∧ parseSchema (buildSchemaStr U tables actions) = .ok schema
    | _ => True

variable {U parseSchema C} {s : PackagesState S}

/-- **What a call has listed before it writes**; and one that returns has written. -/
theorem SyncCall.keeps_program (c : SyncCall) :
    (c.program U parseSchema).Keeps (syncContract U parseSchema)
      (Program.OnOk fun _ h => Written h) [] := by
  rintro (e | ⟨⟩) -
  · exact ⟨rfl, trivial⟩
  · refine ⟨rfl, fun tables _ => ⟨trivial, fun actions _ => ⟨trivial, ?_⟩⟩⟩
    simp only [Program.pure_bind]
    cases hparse : parseSchema (buildSchemaStr U tables actions) with
    | error e => trivial
    | ok schema =>
      rintro ⟨⟩ -
      refine ⟨⟨tables, actions, by simp, by simp, hparse⟩, ?_⟩
      exact ⟨_, List.mem_cons_self, schema, rfl⟩

/-- A call that is still to write the schema is so after a step that does not write it. -/
theorem rebuilding_cons [DecidableEq ι] {log : List (Move (packages S) ι (PackagesState S))}
    {m : Move (packages S) ι (PackagesState S)}
    (hm : ∀ schema, m.event ≠ ⟨.writeSchema schema, ()⟩)
    (h : ∃ i, Committed (own i log) ∧ ¬Written (own i log)) :
    ∃ i, Committed (own i (m :: log)) ∧ ¬Written (own i (m :: log)) := by
  obtain ⟨i, ⟨e, he, hcommit⟩, hwritten⟩ := h
  obtain ⟨j, event, before⟩ := m
  refine ⟨i, ?_⟩
  by_cases hij : j = i
  · subst hij
    rw [own_cons_self]
    refine ⟨⟨e, List.mem_cons_of_mem _ he, hcommit⟩, ?_⟩
    rintro ⟨e', he', schema, rfl⟩
    rcases List.mem_cons.mp he' with heq | hmem
    · exact hm schema heq.symm
    · exact hwritten ⟨_, hmem, schema, rfl⟩
  · rw [own_cons_ne hij]
    exact ⟨⟨e, he, hcommit⟩, hwritten⟩

/-- **The schema is current** unless a call that has committed is still to write it, in every run whose
writes are of the registry as it is. -/
theorem current_or_rebuilding [DecidableEq ι] (hs : Current U parseSchema C s) (calls : ι → SyncCall)
    (l : List ι)
    (hP : EachMove (WritesCurrent C) (SyncCall.runAll U parseSchema C s calls l).log) :
    Current U parseSchema C (SyncCall.runAll U parseSchema C s calls l).state ∨
      ∃ i, Committed (own i (SyncCall.runAll U parseSchema C s calls l).log) ∧
        ¬Written (own i (SyncCall.runAll U parseSchema C s calls l).log) := by
  refine (Config.run_when (C := fun _ => syncContract U parseSchema)
    (J := fun s log => Current U parseSchema C s ∨ ∃ i, Committed (own i log) ∧ ¬Written (own i log))
    (fun i => (calls i).keeps_program) (fun _ _ _ => trivial) (.inl hs) ?_
    (fun _ _ t => t.elim) _ hP).1
  intro s log i q hJ hg hcurrent
  have hguar := hg [] _ log rfl
  cases q with
  | syncPackage packageId tables actions =>
    have hfirst : own i log = [] := hguar
    simp only [handlePackages]
    cases hsync : s.registry.syncPackage packageId tables actions with
    | error e => exact hJ.imp id (rebuilding_cons fun schema h => by cases h)
    | ok r =>
      refine .inr ⟨i, ?_⟩
      rw [own_cons_self, hfirst]
      refine ⟨⟨_, List.mem_cons_self, packageId, tables, actions, rfl⟩, ?_⟩
      rintro ⟨e, he, schema, rfl⟩
      cases List.mem_singleton.mp he
  | listTables => exact hJ.imp id (rebuilding_cons fun schema h => by cases h)
  | listCustomActions => exact hJ.imp id (rebuilding_cons fun schema h => by cases h)
  | writeSchema schema =>
    obtain ⟨tables, actions, htables, hactions, hparse⟩ := hguar
    obtain ⟨hlisted, hlisted'⟩ := hcurrent schema rfl
    refine .inl ?_
    rw [hlisted tables htables, hlisted' actions hactions] at hparse
    exact hparse

/-- **The schema is that of the registry when all calls that have committed have returned**, in every
run in which the calls that write the schema have listed the registry as it is. -/
theorem run_schemaCurrent [DecidableEq ι] (hs : Current U parseSchema C s) (calls : ι → SyncCall)
    (l : List ι)
    (hP : EachMove (WritesCurrent C) (SyncCall.runAll U parseSchema C s calls l).log)
    (hdone : ∀ i, Committed (own i (SyncCall.runAll U parseSchema C s calls l).log) →
      (SyncCall.runAll U parseSchema C s calls l).threads i = .pure ()) :
    Current U parseSchema C (SyncCall.runAll U parseSchema C s calls l).state := by
  rcases current_or_rebuilding hs calls l hP with hcurrent | ⟨i, hcommitted, hwritten⟩
  · exact hcurrent
  · -- A call that has returned has written.
    have hwrote := Config.run_outcome (C := fun _ => syncContract U parseSchema)
      (Q := fun _ => Program.OnOk fun _ h => Written h) (fun i => (calls i).keeps_program)
      (fun _ _ _ => trivial) _ (hdone i hcommitted)
    exact absurd hwrote hwritten

/-! ### A slow rebuild -/

/-- Two packages with an action each. -/
def twoSyncs : Bool → SyncCall
  | false => ⟨"crm", [], [], ["export"]⟩
  | true => ⟨"erp", [], [], ["import"]⟩

/-- The first call lists the registry, and writes the schema after the whole second call. -/
def slowRebuild : List Bool := [false, false, false, true, true, true, true, false]

/-- A parser that keeps the text. -/
def keepText : SchemaParser String := .ok

/-- A server whose registry is empty, with its schema. -/
def emptyServer (C : Collation) : PackagesState String :=
  { noPackages with schema := noPackages.registry.schemaText asciiCase C }

/-- A sync of an action, without tables: it adds the action. -/
theorem syncPackage_action (r : Registry) (packageId a : String)
    (hp : packageId.toList.length ≤ 255) (ha : a.toList.length ≤ 255) :
    ∃ r', r.syncPackage packageId [] (allActions asciiCase [] [] [a]) = .ok r' ∧
      (∀ x, x ∈ r'.packages ↔ x ∈ r.packages ∧ x.1 ≠ packageId) ∧
      ∀ x, x ∈ r'.actions ↔ (x ∈ r.actions ∧ x.1 ≠ packageId) ∨ x = (packageId, a) := by
  have hpair : pairRow packageId a = .ok (packageId, a) := pairRow_of_le hp ha
  have hall : ∀ b, b ∈ allActions asciiCase [] [] [a] ↔ b = a := by
    intro b
    rw [mem_allActions]
    simp
  have htables : ∀ t ∈ ([] : List String), ∃ row, pairRow packageId t = .ok row :=
    List.forall_mem_nil _
  have hactions : ∀ b ∈ allActions asciiCase [] [] [a], ∃ row, pairRow packageId b = .ok row :=
    fun b hb => ⟨_, (hall b).mp hb ▸ hpair⟩
  obtain ⟨r', hr'⟩ := Registry.syncPackage_isOk htables hactions r
  refine ⟨r', hr', fun x => ?_, fun x => ?_⟩
  · simp [Registry.mem_packages_syncPackage hr']
  · rw [Registry.mem_actions_syncPackage hr']
    refine or_congr_right ?_
    constructor
    · rintro ⟨b, hb, hrow⟩
      rw [(hall b).mp hb, hpair, Except.ok.injEq] at hrow
      exact hrow.symm
    · rintro rfl
      exact ⟨a, (hall a).mpr rfl, hpair⟩

section Schedules

-- The schedules are played out step by step.
attribute [local simp] SyncCall.runAll Config.run Config.start Config.play Config.advance
  SyncCall.program PackagesService.sync PackagesService.rebuildSchema askPackages Program.request
  handlePackages twoSyncs keepText emptyServer

/-- The first call writes the schema of its own registry over that of both. -/
theorem slowRebuild_end {C : Collation} {r₁ r₂ : Registry}
    (h₁ : noPackages.registry.syncPackage "crm" [] (allActions asciiCase [] [] ["export"]) = .ok r₁)
    (h₂ : r₁.syncPackage "erp" [] (allActions asciiCase [] [] ["import"]) = .ok r₂) :
    (SyncCall.runAll asciiCase keepText C (emptyServer C) twoSyncs slowRebuild).state =
        ⟨r₂, r₁.schemaText asciiCase C⟩ ∧
      ∀ i, (SyncCall.runAll asciiCase keepText C (emptyServer C) twoSyncs slowRebuild).threads i =
        .pure () := by
  constructor
  · simp [slowRebuild, h₁, h₂, Registry.schemaText]
  · rintro (_ | _) <;> simp [slowRebuild, h₁, h₂]

/-- The calls one after the other. -/
def syncsInTurn : List Bool := [false, false, false, false, true, true, true, true]

theorem syncsInTurn_writesCurrent {C : Collation} {r₁ r₂ : Registry}
    (h₁ : noPackages.registry.syncPackage "crm" [] (allActions asciiCase [] [] ["export"]) = .ok r₁)
    (h₂ : r₁.syncPackage "erp" [] (allActions asciiCase [] [] ["import"]) = .ok r₂) :
    EachMove (WritesCurrent C)
        (SyncCall.runAll asciiCase keepText C (emptyServer C) twoSyncs syncsInTurn).log ∧
      ∀ i, (SyncCall.runAll asciiCase keepText C (emptyServer C) twoSyncs syncsInTurn).threads i =
        .pure () := by
  constructor
  · simp [syncsInTurn, h₁, h₂, eachMove_cons, EachMove.nil, WritesCurrent, own]
  · rintro (_ | _) <;> simp [syncsInTurn, h₁, h₂]

end Schedules

theorem run_schemaCurrent_inTurn : Current asciiCase keepText .bytewise
    (SyncCall.runAll asciiCase keepText .bytewise (emptyServer .bytewise) twoSyncs syncsInTurn).state := by
  obtain ⟨r₁, h₁, -, -⟩ := syncPackage_action noPackages.registry "crm" "export" (by decide)
    (by decide)
  obtain ⟨r₂, h₂, -, -⟩ := syncPackage_action r₁ "erp" "import" (by decide) (by decide)
  obtain ⟨hwrites, hdone⟩ := syncsInTurn_writesCurrent (C := .bytewise) h₁ h₂
  have hstart : Current asciiCase keepText .bytewise (emptyServer .bytewise) := rfl
  exact run_schemaCurrent hstart twoSyncs syncsInTurn hwrites fun i _ => hdone i

/-- **A slow rebuild that overwrites a newer schema**: the action of the second package is not in the
schema in memory. -/
theorem slowRebuild_stale :
    ¬ ∀ (s : PackagesState String) (calls : Bool → SyncCall) (l : List Bool),
      Current asciiCase keepText .bytewise s →
      (∀ i, (SyncCall.runAll asciiCase keepText .bytewise s calls l).threads i = .pure ()) →
        Current asciiCase keepText .bytewise
          (SyncCall.runAll asciiCase keepText .bytewise s calls l).state := by
  intro h
  obtain ⟨r₁, h₁, htables₁, hactions₁⟩ := syncPackage_action noPackages.registry "crm" "export"
    (by decide) (by decide)
  obtain ⟨r₂, h₂, htables₂, hactions₂⟩ := syncPackage_action r₁ "erp" "import" (by decide)
    (by decide)
  obtain ⟨hstate, hdone⟩ := slowRebuild_end (C := .bytewise) h₁ h₂
  have hcurrent := h (emptyServer .bytewise) twoSyncs slowRebuild rfl hdone
  rw [hstate] at hcurrent
  have htext : r₂.schemaText asciiCase .bytewise = r₁.schemaText asciiCase .bytewise :=
    Except.ok.inj hcurrent
  have hplain : PlainName "export" ∧ PlainName "import" := by
    unfold PlainName
    decide
  have hexport : ∀ x, x ∈ r₁.actions ↔ x = ("crm", "export") := by
    intro x
    rw [hactions₁, or_iff_right fun hold => Table.not_mem_empty x hold.1]
  have himport : ∀ x, x ∈ r₂.actions → x.2 = "export" ∨ x = ("erp", "import") := by
    intro x hx
    refine ((hactions₂ x).mp hx).imp (fun hold => ?_) id
    rw [(hexport x).mp hold.1]
  have hnone₁ : ∀ x, x ∉ r₁.listTables .bytewise := fun x hx =>
    Table.not_mem_empty x ((htables₁ x).mp (Registry.mem_listTables.mp hx)).1
  have hnone₂ : ∀ x, x ∉ r₂.listTables .bytewise := fun x hx =>
    hnone₁ x (Registry.mem_listTables.mpr ((htables₂ x).mp (Registry.mem_listTables.mp hx)).1)
  have hdeclared : "import" ∈ declaredActions (r₂.schemaText asciiCase .bytewise) := by
    refine (mem_declaredActions (fun x hx => absurd hx (hnone₂ x)) fun x hx => ?_).mpr
      (exists_declares.mpr ?_)
    · rcases himport x (Registry.mem_listCustomActions.mp hx) with hname | rfl
      · rw [hname]
        exact hplain.1
      · exact hplain.2
    · have hstored : ("erp", "import") ∈ r₂.listCustomActions .bytewise :=
        Registry.mem_listCustomActions.mpr ((hactions₂ _).mpr (.inr rfl))
      simp only [registryActions, List.mem_append]
      exact .inl (.inl (.inr (List.mem_map.mpr ⟨_, hstored, rfl⟩)))
  -- The text of the first call declares no such action.
  rw [htext] at hdeclared
  have hstored : ∀ x ∈ r₁.listCustomActions .bytewise, x.2 = "export" := by
    intro x hx
    rw [(hexport x).mp (Registry.mem_listCustomActions.mp hx)]
  obtain ⟨clause, hdeclares⟩ := (mem_declaredActions (fun x hx => absurd hx (hnone₁ x))
    fun x hx => by rw [hstored x hx]; exact hplain.1).mp hdeclared
  cases hdeclares with
  | crud ht => exact hnone₁ _ ht
  | query ha => revert ha; decide
  | view ha => revert ha; decide
  | custom ha =>
    have hname : "import" = "export" := hstored _ ha
    exact absurd hname (by decide)

end Authrs
