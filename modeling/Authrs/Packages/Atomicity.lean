import Authrs.Interaction.Serial
import Authrs.Services.Packages

/-!
# Failed syncs

`sync` commits the rows of a package before it builds the schema text and has it parsed. When the text
does not parse, the call fails with the rows in place: the text of the next sync, of any package, does
not parse either, and the server does not start again. So a failed sync leaves the state alone as long
as the text is parsed whenever the rows fit their columns.

## Main definitions

* `SyncCall`: a call, with its outcome `SyncCall.exec`
* `startup`: the rebuild of the server's `main`
* `SyncCall.Renders`: the schema text after the call parses
* `SyncsAtomically`: what a run of calls that leaves nothing behind is

## Main results

* `SyncCall.exec_cases`: the three outcomes of a call
* `unchanged_iff_renders`: a failed call changes nothing exactly when the text of its rows parses
* `syncsAtomically_iff`: the same of runs, whose states can be rebuilt
* `renders_iff_named`: the text of a first sync parses when its tables have names
* `blankSync_poisons`: a table `_` leaves rows whose text does not parse
-/

namespace Authrs

open Interaction Relational Schema

/-- A call of `sync`. -/
structure SyncCall where
  packageId : String
  tables : List String
  extensibleTables : List String
  customActions : List String

namespace SyncCall

variable {S : Type} (U : CaseTable) (parseSchema : SchemaParser S) (C : Collation)

def program (c : SyncCall) : PackagesProgram S Unit :=
  PackagesService.sync U parseSchema c.packageId c.tables c.extensibleTables c.customActions

/-- The call, made alone. -/
def exec (c : SyncCall) (s : PackagesState S) : Except AppError Unit × PackagesState S :=
  (c.program U parseSchema).exec (handlePackages C) s

/-- The state after the call. -/
def next (s : PackagesState S) (c : SyncCall) : PackagesState S := (c.exec U parseSchema C s).2

/-- The registry with the rows of the package replaced by those of the call. -/
def registry (c : SyncCall) (r : Registry) : Except SqlError Registry :=
  r.syncPackage c.packageId c.tables (allActions U c.tables c.extensibleTables c.customActions)

/-- **The schema text after the call parses**, unless its rows do not fit their columns. -/
def Renders (r : Registry) (c : SyncCall) : Prop :=
  ∀ r', c.registry U r = .ok r' → ∃ schema, parseSchema (r'.schemaText U C) = .ok schema

/-- A failed call leaves both tables and the schema as they were. -/
def Unchanged (s : PackagesState S) (c : SyncCall) : Prop :=
  ∀ e, (c.exec U parseSchema C s).1 = .error e → (c.exec U parseSchema C s).2 = s

end SyncCall

variable {S : Type} (U : CaseTable) (parseSchema : SchemaParser S) (C : Collation)

/-- The rebuild of `main`: the server does not start without a schema. -/
def startup (s : PackagesState S) : Except Failure (PackagesState S) :=
  match (PackagesService.rebuildSchema U parseSchema).exec (handlePackages C) s with
  | (.ok (), s') => .ok s'
  | (.error _, _) => .error (.panic "Failed to load Cedar schema from DB")

/-- The schema text of the registry parses. -/
def Parses (s : PackagesState S) : Prop :=
  ∃ schema, parseSchema (s.registry.schemaText U C) = .ok schema

/-- **A run of syncs that leaves nothing behind**: a failed call changes nothing, and in every state
that the run reaches the schema can be rebuilt and the server starts. -/
structure SyncsAtomically (s : PackagesState S) (l : List SyncCall) : Prop where
  unchanged : EachCall (SyncCall.next U parseSchema C) (SyncCall.Unchanged U parseSchema C) s l
  rebuilds : ∀ l', l' <+: l → ((PackagesService.rebuildSchema U parseSchema).exec (handlePackages C)
    (finalState (SyncCall.next U parseSchema C) s l')).1 = .ok ()
  starts : ∀ l', l' <+: l → ∃ s',
    startup U parseSchema C (finalState (SyncCall.next U parseSchema C) s l') = .ok s'

variable {U parseSchema C} {s : PackagesState S} {c : SyncCall}

variable (U parseSchema C) in
/-- **The outcomes of a call**: the rows do not fit; the schema is rebuilt; or the text does not
parse, with the rows in place. -/
theorem SyncCall.exec_cases (s : PackagesState S) (c : SyncCall) :
    (∃ e, c.registry U s.registry = .error e ∧
      c.exec U parseSchema C s = (.error (.ofSqlError e), s)) ∨
    (∃ r schema, c.registry U s.registry = .ok r ∧ parseSchema (r.schemaText U C) = .ok schema ∧
      c.exec U parseSchema C s = (.ok (), ⟨r, schema⟩)) ∨
    (∃ r e, c.registry U s.registry = .ok r ∧ parseSchema (r.schemaText U C) = .error e ∧
      c.exec U parseSchema C s =
        (.error (.internal ("Cedar schema error: " ++ e)), { s with registry := r })) := by
  rw [SyncCall.exec, SyncCall.program, exec_sync]
  cases hregistry : c.registry U s.registry with
  | error e =>
    rw [SyncCall.registry] at hregistry
    rw [hregistry]
    exact .inl ⟨e, rfl, rfl⟩
  | ok r =>
    have hsynced := hregistry
    rw [SyncCall.registry] at hsynced
    rw [hsynced]
    simp only [exec_rebuildSchema]
    cases hparse : parseSchema (r.schemaText U C) with
    | ok schema => exact .inr (.inl ⟨r, schema, rfl, hparse, rfl⟩)
    | error e => exact .inr (.inr ⟨r, e, rfl, hparse, rfl⟩)

/-- **A failed call changes nothing exactly when the text of its rows parses.** -/
theorem unchanged_iff_renders (hs : Parses U parseSchema C s) :
    c.Unchanged U parseSchema C s ↔ c.Renders U parseSchema C s.registry := by
  rcases SyncCall.exec_cases U parseSchema C s c with
    ⟨e, hregistry, hexec⟩ | ⟨r, schema, hregistry, hparse, hexec⟩ | ⟨r, e, hregistry, hparse, hexec⟩
  · constructor
    · intro _ r' hr'
      rw [hregistry] at hr'
      cases hr'
    · intro _ e' _
      rw [hexec]
  · constructor
    · intro _ r' hr'
      rw [hregistry] at hr'
      obtain rfl := Except.ok.inj hr'
      exact ⟨schema, hparse⟩
    · intro _ e' he'
      rw [hexec] at he'
      cases he'
  · constructor
    · intro hunchanged
      -- The registry is the one before, whose text parses.
      have hsame := hunchanged (.internal ("Cedar schema error: " ++ e)) (by rw [hexec])
      rw [hexec] at hsame
      obtain ⟨schema, hschema⟩ := hs
      rw [← hsame] at hschema
      rw [hparse] at hschema
      cases hschema
    · intro hrenders
      obtain ⟨schema, hschema⟩ := hrenders r hregistry
      rw [hparse] at hschema
      cases hschema

/-- A call whose text parses keeps the registry one that parses. -/
theorem parses_next (hs : Parses U parseSchema C s) (hc : c.Renders U parseSchema C s.registry) :
    Parses U parseSchema C (c.next U parseSchema C s) := by
  rw [SyncCall.next]
  rcases SyncCall.exec_cases U parseSchema C s c with
    ⟨e, -, hexec⟩ | ⟨r, schema, -, hparse, hexec⟩ | ⟨r, e, hregistry, -, hexec⟩
  · rw [hexec]
    exact hs
  · rw [hexec]
    exact ⟨schema, hparse⟩
  · rw [hexec]
    exact hc r hregistry

theorem rebuilds_iff : ((PackagesService.rebuildSchema U parseSchema).exec (handlePackages C) s).1 =
    .ok () ↔ Parses U parseSchema C s := by
  rw [exec_rebuildSchema, Parses]
  cases parseSchema (s.registry.schemaText U C) <;> simp

/-- The server starts on a registry whose text parses. -/
theorem startup_eq_ok (hs : Parses U parseSchema C s) : ∃ s', startup U parseSchema C s = .ok s' := by
  obtain ⟨schema, hschema⟩ := hs
  exact ⟨{ s with schema := schema }, by rw [startup, exec_rebuildSchema, hschema]⟩

/-- **A run of syncs leaves nothing behind exactly when the schema text after each call parses**,
unless the rows of the call do not fit. -/
theorem syncsAtomically_iff (hs : Parses U parseSchema C s) (l : List SyncCall) :
    SyncsAtomically U parseSchema C s l ↔ EachCall (SyncCall.next U parseSchema C)
      (fun s c => c.Renders U parseSchema C s.registry) s l := by
  have hiff : EachCall (SyncCall.next U parseSchema C) (SyncCall.Unchanged U parseSchema C) s l ↔
      EachCall (SyncCall.next U parseSchema C)
        (fun s c => c.Renders U parseSchema C s.registry) s l :=
    eachCall_congr_kept (J := Parses U parseSchema C)
      (fun s c hs hc => parses_next hs ((unchanged_iff_renders hs).mp hc))
      (fun s c hs => unchanged_iff_renders hs) hs l
  constructor
  · intro h
    exact hiff.mp h.unchanged
  · intro h
    have hparses : ∀ l', l' <+: l →
        Parses U parseSchema C (finalState (SyncCall.next U parseSchema C) s l') := by
      rintro l' ⟨rest, rfl⟩
      refine EachCall.invariant (J := Parses U parseSchema C) (fun s c hs hc => ?_) h.initial hs
      exact parses_next hs hc
    exact ⟨hiff.mpr h, fun l' hl' => rebuilds_iff.mpr (hparses l' hl'),
      fun l' hl' => startup_eq_ok (hparses l' hl')⟩

/-! ### A table without a name -/

/-- A parser that rejects an unterminated string and a repeated action. -/
def checkText (text : String) : Except String String :=
  if text.toList.count '"' % 2 ≠ 0 then .error "unterminated string"
  else if (declaredActions text).Nodup then .ok text
  else .error "duplicate action"

/-- It reads the text of plain names in which no action is repeated. -/
theorem checkText_isOk {pt ca : List (String × String)} (hT : ∀ x ∈ pt, PlainName x.2)
    (hA : ∀ x ∈ ca, PlainName x.2) :
    (∃ schema, checkText (buildSchemaStr U pt ca) = .ok schema) ↔
      ∀ x ∈ pt, ∃ c ∈ x.2.toList, c ≠ '_' := by
  rw [checkText, if_neg (by rw [not_not, even_count_quote hT hA]), ← nodup_declaredActions_iff_named
    (U := U) hT hA]
  split <;> simp [*]

/-- The server with an empty registry. -/
def noPackages : PackagesState String := ⟨⟨∅, ∅⟩, ""⟩

theorem parses_noPackages (C : Collation) : Parses asciiCase checkText C noPackages := by
  have htables : ∀ x, x ∉ noPackages.registry.listTables C :=
    fun x hx => Table.not_mem_empty x (Registry.mem_listTables.mp hx)
  have hactions : ∀ x, x ∉ noPackages.registry.listCustomActions C :=
    fun x hx => Table.not_mem_empty x (Registry.mem_listCustomActions.mp hx)
  have hread := checkText_isOk (U := asciiCase) (fun x hx => absurd hx (htables x))
    fun x hx => absurd hx (hactions x)
  rw [Parses, Registry.schemaText, hread]
  exact fun x hx => absurd hx (htables x)

/-- Names that are plain and fit their columns. -/
def FitsPlain (name : String) : Prop := PlainName name ∧ name.toList.length ≤ 255

instance (name : String) : Decidable (FitsPlain name) :=
  inferInstanceAs (Decidable ((_ ∧ _ ∧ _) ∧ _))

/-- A first sync whose names are plain and fit. -/
structure SyncCall.Fits (c : SyncCall) : Prop where
  packageId : c.packageId.toList.length ≤ 255
  tables : ∀ t ∈ c.tables, FitsPlain t
  crud : ∀ t ∈ c.tables, ∀ a ∈ crudActionNames asciiCase t, FitsPlain a
  extensible : ∀ t ∈ c.extensibleTables, ∀ a ∈ extensibleActionNames asciiCase t, FitsPlain a
  custom : ∀ a ∈ c.customActions, FitsPlain a

theorem SyncCall.Fits.actions (h : c.Fits) :
    ∀ a ∈ allActions asciiCase c.tables c.extensibleTables c.customActions, FitsPlain a := by
  intro a ha
  rcases mem_allActions.mp ha with ⟨t, ht, ha⟩ | ⟨t, ht, ha⟩ | ha
  · exact h.crud t ht a ha
  · exact h.extensible t ht a ha
  · exact h.custom a ha

/-- The registry after a first sync whose names fit. -/
theorem SyncCall.Fits.sync (h : c.Fits) : ∃ r, c.registry asciiCase noPackages.registry = .ok r ∧
    (∀ x, x ∈ r.packages ↔ ∃ t ∈ c.tables, (c.packageId, t) = x) ∧
    ∀ x, x ∈ r.actions ↔ ∃ a ∈ allActions asciiCase c.tables c.extensibleTables c.customActions,
      (c.packageId, a) = x := by
  have hpair : ∀ name, FitsPlain name → pairRow c.packageId name = .ok (c.packageId, name) :=
    fun name hname => pairRow_of_le h.packageId hname.2
  obtain ⟨r, hr⟩ := Registry.syncPackage_isOk (fun t ht => ⟨_, hpair t (h.tables t ht)⟩)
    (fun a ha => ⟨_, hpair a (h.actions a ha)⟩) noPackages.registry
  refine ⟨r, hr, fun x => ?_, fun x => ?_⟩
  · rw [Registry.mem_packages_syncPackage hr, or_iff_right fun hold => Table.not_mem_empty x hold.1]
    refine exists_congr fun t => and_congr_right fun ht => ?_
    rw [hpair t (h.tables t ht), Except.ok.injEq]
  · rw [Registry.mem_actions_syncPackage hr, or_iff_right fun hold => Table.not_mem_empty x hold.1]
    refine exists_congr fun a => and_congr_right fun ha => ?_
    rw [hpair a (h.actions a ha), Except.ok.injEq]

/-- **A first sync of plain names renders** when its tables have names. -/
theorem renders_iff_named (h : c.Fits) : c.Renders asciiCase checkText C noPackages.registry ↔
    ∀ t ∈ c.tables, ∃ ch ∈ t.toList, ch ≠ '_' := by
  obtain ⟨r, hr, htables, hactions⟩ := h.sync
  have hplain : ∀ x ∈ r.listTables C, PlainName x.2 := by
    intro x hx
    obtain ⟨t, ht, rfl⟩ := (htables x).mp (Registry.mem_listTables.mp hx)
    exact (h.tables t ht).1
  have hplain' : ∀ x ∈ r.listCustomActions C, PlainName x.2 := by
    intro x hx
    obtain ⟨a, ha, rfl⟩ := (hactions x).mp (Registry.mem_listCustomActions.mp hx)
    exact (h.actions a ha).1
  have hread := checkText_isOk (U := asciiCase) hplain hplain'
  constructor
  · intro hrenders t ht
    have hnamed := hrenders r hr
    rw [Registry.schemaText, hread] at hnamed
    exact hnamed _ (Registry.mem_listTables.mpr ((htables _).mpr ⟨t, ht, rfl⟩))
  · intro hnamed r' hr'
    obtain rfl := Except.ok.inj (hr.symm.trans hr')
    rw [Registry.schemaText, hread]
    intro x hx
    obtain ⟨t, ht, rfl⟩ := (htables x).mp (Registry.mem_listTables.mp hx)
    exact hnamed t ht

/-- A sync of contacts. -/
def contactsSync : SyncCall := ⟨"crm", ["contacts"], ["contacts"], ["export"]⟩

/-- A sync of a table with the name `_`. -/
def blankSync : SyncCall := ⟨"crm", ["_"], [], []⟩

theorem contactsSync_fits : contactsSync.Fits := by
  constructor <;> decide

theorem blankSync_fits : blankSync.Fits := by
  constructor <;> decide

theorem syncsAtomically_contactsSync :
    SyncsAtomically asciiCase checkText .bytewise noPackages [contactsSync] := by
  refine (syncsAtomically_iff (parses_noPackages _) [contactsSync]).mpr ⟨?_, trivial⟩
  refine (renders_iff_named contactsSync_fits).mpr fun t ht => ?_
  rw [List.mem_singleton.mp ht]
  exact ⟨'c', by decide, by decide⟩

/-- The rows of a table `_` are committed, and the call fails. -/
theorem blankSync_poisons :
    ¬ ∀ s : PackagesState String, Parses asciiCase checkText .bytewise s →
      ∀ l, SyncsAtomically asciiCase checkText .bytewise s l := by
  intro h
  have hunchanged := (h noPackages (parses_noPackages _) [blankSync]).unchanged.1
  have hrenders := (unchanged_iff_renders (parses_noPackages _)).mp hunchanged
  obtain ⟨ch, hch, hne⟩ := (renders_iff_named blankSync_fits).mp hrenders "_" List.mem_cons_self
  exact hne (List.mem_singleton.mp hch)

end Authrs
