import Authrs.Packages.Actions

/-!
# Extensible tables

The registry does not store which tables are extensible: a table counts as extensible when one of its
extensible-fields actions is stored. Those names are told apart from the names of the other tables only
by the PascalCase names, so a table that is not flagged is listed as extensible when the CRUD action of
another table, or the action of a flagged one with the same PascalCase name, has that name. The path of
a table is read segment by segment, so a slash in the name of the package or the table makes it the path
of another one.

## Main definitions

* `Registry.after`: the registry after a history of calls
* `SyncCall.Gives`: an action of a call's tables is stored as an extensible-fields action of a table
* `tableText`, `OneSegment`: the path of a table, and when it is read as its own
* `Registry.Names`: the registry has an action in the scope that a path is read as
* `TellsExtensible`: the actions of a table are listed when it was flagged

## Main results

* `extensible_sync`: the extensible tables after a call
* `scope_tableText`: what the path of a table is read as
* `tellsExtensible_iff`: when the listed actions tell the flagged tables
* `crudAction_as_extensible`: a CRUD action that makes another table extensible
-/

namespace Authrs

open Interaction Relational Schema

variable {U : CaseTable} {C : Collation} {r r' : Registry}

/-! ### Blanks -/

/-- Blanks at the end. -/
def blanks (n : Nat) : List Char := List.replicate n ' '

theorem pascalChars_only_blanks (start : Bool) (n : Nat) :
    pascalChars U start (blanks n) = blanks n := by
  induction n generalizing start with
  | zero => rfl
  | succ n ih =>
    have hblank : (if start then U.toUppercase ' ' else [' ']) = [' '] := by
      cases start
      · rfl
      · exact U.toUppercase_blank
    have hword : pascalChars U start (' ' :: blanks n) =
        (if start then U.toUppercase ' ' else [' ']) ++ pascalChars U false (blanks n) := by
      rw [pascalChars, if_neg (by decide)]
    have hcons : blanks (n + 1) = ' ' :: blanks n := rfl
    rw [hcons, hword, hblank, ih]
    rfl

theorem pascalChars_blanks (start : Bool) (l : List Char) (n : Nat) :
    pascalChars U start (l ++ blanks n) = pascalChars U start l ++ blanks n := by
  induction l generalizing start with
  | nil => exact pascalChars_only_blanks start n
  | cons c l ih =>
    rw [List.cons_append, pascalChars, pascalChars]
    split
    · exact ih true
    · rw [ih false, List.append_assoc]

/-- A value of a column, with the blanks that were dropped. -/
theorem blanks_of_varcharReq {n : Nat} {s t : String} (h : varcharReq n s = .ok t) :
    ∃ k, s.toList = t.toList ++ blanks k := by
  have hcolumn := varcharReq_ok h
  unfold varchar at hcolumn
  split at hcolumn
  · obtain rfl := Option.some.inj hcolumn
    exact ⟨0, (List.append_nil _).symm⟩
  · split at hcolumn
    · rename_i hall
      obtain rfl := Option.some.inj hcolumn
      refine ⟨(s.toList.drop n).length, ?_⟩
      have hdropped : s.toList.drop n = blanks (s.toList.drop n).length := by
        refine List.eq_replicate_of_mem fun c hc => ?_
        simpa using List.all_eq_true.mp hall c hc
      rw [String.toList_ofList, ← hdropped, List.take_append_drop]
    · cases hcolumn

theorem length_of_varcharReq {n : Nat} {s t : String} (h : varcharReq n s = .ok t) :
    t.toList.length ≤ n := by
  have hcolumn := varcharReq_ok h
  unfold varchar at hcolumn
  split at hcolumn
  · rename_i hlen
    obtain rfl := Option.some.inj hcolumn
    exact hlen
  · split at hcolumn
    · obtain rfl := Option.some.inj hcolumn
      rw [String.toList_ofList, List.length_take]
      exact Nat.min_le_left _ _
    · cases hcolumn

/-- A name that is stored as an extensible-fields action is one, of a table with the same blanks. -/
theorem extensibleActionNames_of_stored {a b t : String} (ha : a ∈ extensibleActionNames U t)
    (h : varcharReq 255 b = .ok a) : ∃ t', b ∈ extensibleActionNames U t' := by
  obtain ⟨k, hk⟩ := blanks_of_varcharReq h
  obtain ⟨v, hv, rfl⟩ := List.mem_map.mp ha
  refine ⟨String.ofList (t.toList ++ blanks k), List.mem_map.mpr ⟨v, hv, ?_⟩⟩
  rw [← String.toList_inj, String.toList_append, toList_toPascalCase, String.toList_ofList,
    pascalChars_blanks, hk, String.toList_append, toList_toPascalCase, List.append_assoc]

/-! ### Stored actions -/

/-- The registry after a call: a call that fails has changed nothing. -/
def SyncCall.apply (U : CaseTable) (r : Registry) (c : SyncCall) : Registry :=
  (c.registry U r).toOption.getD r

/-- **The registry after a history of calls**, from an empty one. -/
def Registry.after (U : CaseTable) (l : List SyncCall) : Registry :=
  finalState (SyncCall.apply U) ⟨∅, ∅⟩ l

/-- The service changes the registry in this way. -/
theorem SyncCall.registry_next {S : Type} {parseSchema : SchemaParser S} (s : PackagesState S)
    (c : SyncCall) : (c.next U parseSchema C s).registry = c.apply U s.registry := by
  rw [SyncCall.next, SyncCall.apply]
  rcases SyncCall.exec_cases U parseSchema C s c with
    ⟨e, hregistry, hexec⟩ | ⟨r, schema, hregistry, -, hexec⟩ | ⟨r, e, hregistry, -, hexec⟩ <;>
  · rw [hexec, hregistry]
    rfl

/-- **An action of the call's tables is stored as an extensible-fields action** of the table `t`: a
CRUD action of a table, or an extensible-fields action of a flagged one. -/
def SyncCall.Gives (U : CaseTable) (c : SyncCall) (t : String) : Prop :=
  ∃ a ∈ extensibleActionNames U t, ∃ b, ((∃ t' ∈ c.tables, b ∈ crudActionNames U t') ∨
    ∃ t' ∈ c.extensibleTables, b ∈ extensibleActionNames U t') ∧ varcharReq 255 b = .ok a

/-- No custom action has the form of an extensible-fields action. -/
def SyncCall.PlainCustom (U : CaseTable) (c : SyncCall) : Prop :=
  ∀ a ∈ c.customActions, ∀ t, a ∉ extensibleActionNames U t

theorem pairRow_eq_ok {packageId name p a : String} : pairRow packageId name = .ok (p, a) ↔
    varcharReq 255 packageId = .ok p ∧ varcharReq 255 name = .ok a := by
  simp only [pairRow, bind_eq_ok, Except.ok.injEq, Prod.mk.injEq]
  constructor
  · rintro ⟨_, hp, _, ha, rfl, rfl⟩
    exact ⟨hp, ha⟩
  · rintro ⟨hp, ha⟩
    exact ⟨p, hp, a, ha, rfl, rfl⟩

/-- **The extensible tables after a call**: those before it, of other packages, and those that its own
actions make extensible. -/
theorem extensible_sync {c : SyncCall} {p t : String} (hc : c.PlainCustom U)
    (h : c.registry U r = .ok r') : r'.Extensible U (p, t) ↔
      r.Extensible U (p, t) ∧ p ≠ c.packageId ∨ varcharReq 255 c.packageId = .ok p ∧ c.Gives U t := by
  simp only [Registry.Extensible, Registry.mem_actions_syncPackage h, pairRow_eq_ok, mem_allActions]
  constructor
  · rintro ⟨a, ha, ⟨hold, hne⟩ | ⟨b, hb, hp, hstored⟩⟩
    · exact .inl ⟨⟨a, ha, hold⟩, hne⟩
    · refine .inr ⟨hp, a, ha, b, ?_, hstored⟩
      rcases hb with hcrud | hext | hcustom
      · exact .inl hcrud
      · exact .inr hext
      · obtain ⟨t', ht'⟩ := extensibleActionNames_of_stored ha hstored
        exact absurd ht' (hc b hcustom t')
  · rintro (⟨⟨a, ha, hold⟩, hne⟩ | ⟨hp, a, ha, b, hb, hstored⟩)
    · exact ⟨a, ha, .inl ⟨hold, hne⟩⟩
    · refine ⟨a, ha, .inr ⟨b, ?_, hp, hstored⟩⟩
      rcases hb with hcrud | hext
      · exact .inl hcrud
      · exact .inr (.inl hext)

/-- A later call that is stored under the package `p` gives the table no action. -/
def GivesNothing (U : CaseTable) (p t : String) (r : Registry) (d : SyncCall) : Prop :=
  (∃ r', d.registry U r = .ok r') → varcharReq 255 d.packageId = .ok p → ¬d.Gives U t

/-- A call of the package `p` fails. -/
def NotSynced (U : CaseTable) (p : String) (r : Registry) (d : SyncCall) : Prop :=
  d.packageId = p → ∀ r', d.registry U r ≠ .ok r'

/-- The extensible tables after calls of other packages. -/
theorem extensible_after {p t : String} {l : List SyncCall} (hcustom : ∀ d ∈ l, d.PlainCustom U)
    (hlast : EachCall (SyncCall.apply U) (NotSynced U p) r l) :
    (finalState (SyncCall.apply U) r l).Extensible U (p, t) ↔ r.Extensible U (p, t) ∨
      ¬EachCall (SyncCall.apply U) (GivesNothing U p t) r l := by
  induction l generalizing r with
  | nil => exact (or_iff_left (not_not.mpr trivial)).symm
  | cons d l ih =>
    obtain ⟨hd, hl⟩ := hlast
    have hrest := ih (fun d hd => hcustom d (List.mem_cons_of_mem _ hd)) hl
    show (finalState (SyncCall.apply U) (d.apply U r) l).Extensible U (p, t) ↔ _
    rw [hrest]
    simp only [EachCall]
    cases hregistry : d.registry U r with
    | error e =>
      have hsame : d.apply U r = r := by
        rw [SyncCall.apply, hregistry]
        rfl
      have hnothing : GivesNothing U p t r d := by
        rintro ⟨r', hr'⟩
        rw [hregistry] at hr'
        cases hr'
      rw [hsame, and_iff_right hnothing]
    | ok r' =>
      have happly : d.apply U r = r' := by
        rw [SyncCall.apply, hregistry]
        rfl
      have hother : p ≠ d.packageId := fun hp => hd hp.symm r' hregistry
      have hnothing : ¬GivesNothing U p t r d ↔ varcharReq 255 d.packageId = .ok p ∧ d.Gives U t := by
        simp only [GivesNothing, hregistry, Except.ok.injEq, exists_eq', true_imp_iff]
        rw [Classical.not_imp, not_not]
      rw [happly, extensible_sync (hcustom d List.mem_cons_self) hregistry, and_iff_left hother,
        not_and_or, hnothing]
      exact or_assoc

/-- The tables of a package stay after calls of other packages. -/
theorem table_after {row : String × String} {l : List SyncCall} (hrow : row ∈ r.packages)
    (hlast : EachCall (SyncCall.apply U) (NotSynced U row.1) r l) :
    row ∈ (finalState (SyncCall.apply U) r l).packages := by
  refine EachCall.invariant (J := fun r => row ∈ r.packages) (fun r d hrow hd => ?_) hlast hrow
  rw [SyncCall.apply]
  cases hregistry : d.registry U r with
  | error e => exact hrow
  | ok r' =>
    have hother : row.1 ≠ d.packageId := fun hp => hd hp.symm r' hregistry
    exact (Registry.mem_packages_syncPackage hregistry).mpr (.inl ⟨hrow, hother⟩)

/-- An action that fits its column makes its table extensible. -/
theorem fits_of_gives {c : SyncCall} {t : String} (h : c.Gives U t) :
    ∃ a ∈ extensibleActionNames U t, a.toList.length ≤ 255 := by
  obtain ⟨a, ha, b, -, hstored⟩ := h
  exact ⟨a, ha, length_of_varcharReq hstored⟩

/-! ### The path of a table -/

/-- The path of a table. -/
def tableText (s p t : String) : String :=
  joinStr ["service:" ++ s, "package:" ++ p, "table:" ++ t] '/'

/-- The package and the table are each one segment of a path. -/
def OneSegment (p t : String) : Prop := '/' ∉ p.toList ∧ '/' ∉ t.toList

instance (p t : String) : Decidable (OneSegment p t) := inferInstanceAs (Decidable (_ ∧ _))

/-- The package and the table after one more segment. -/
def readSegment (scope : Option String × Option String) (segment : String) :
    Option String × Option String :=
  match dropStart "package:" segment with
  | some p => (some p, scope.2)
  | none =>
    match dropStart "table:" segment with
    | some t => (scope.1, some t)
    | none => scope

theorem parseResourceScope_eq (resource : String) :
    parseResourceScope resource = (splitChar resource '/').foldl readSegment (none, none) := rfl

theorem readSegment_package (scope : Option String × Option String) (p : String) :
    readSegment scope ("package:" ++ p) = (some p, scope.2) := by
  rw [readSegment, dropStart_append]

theorem readSegment_table (scope : Option String × Option String) (t : String) :
    readSegment scope ("table:" ++ t) = (scope.1, some t) := by
  have hpackage : dropStart "package:" ("table:" ++ t) = none :=
    dropStart_segment (by decide) (by decide) (by decide) t
  simp only [readSegment, hpackage, dropStart_append]

/-- What a segment is read as has no separator if the segment has none. -/
theorem notMem_of_dropStart {start segment rest : String} (h : dropStart start segment = some rest)
    (hfree : '/' ∉ segment.toList) : '/' ∉ rest.toList := by
  rw [dropStart, Option.map_eq_some_iff] at h
  obtain ⟨l, hl, rfl⟩ := h
  rw [String.toList_ofList]
  intro hmem
  refine hfree ?_
  rw [List.dropPrefix?_eq_some_iff] at hl
  obtain ⟨pre, hpre, -⟩ := hl
  rw [hpre]
  exact List.mem_append_right _ hmem

/-- A scope whose package and table are each one segment. -/
def SegmentScope (scope : Option String × Option String) : Prop :=
  (∀ p ∈ scope.1, '/' ∉ p.toList) ∧ ∀ t ∈ scope.2, '/' ∉ t.toList

theorem SegmentScope.readSegment {scope : Option String × Option String} {segment : String}
    (h : SegmentScope scope) (hfree : '/' ∉ segment.toList) :
    SegmentScope (readSegment scope segment) := by
  rw [Authrs.readSegment]
  split
  · rename_i p hp
    exact ⟨fun q hq => Option.some.inj hq ▸ notMem_of_dropStart hp hfree, h.2⟩
  · split
    · rename_i t ht
      exact ⟨h.1, fun q hq => Option.some.inj hq ▸ notMem_of_dropStart ht hfree⟩
    · exact h

/-- A segment is read without losing what was read before. -/
theorem isSome_readSegment (scope : Option String × Option String) (segment : String) :
    (scope.1.isSome → (readSegment scope segment).1.isSome) ∧
      (scope.2.isSome → (readSegment scope segment).2.isSome) := by
  rw [readSegment]
  split
  · exact ⟨fun _ => rfl, id⟩
  · split
    · exact ⟨id, fun _ => rfl⟩
    · exact ⟨id, id⟩

theorem segmentScope_parseResourceScope (resource : String) :
    SegmentScope (parseResourceScope resource) := by
  rw [parseResourceScope_eq]
  refine List.foldlRecOn _ readSegment (motive := SegmentScope) ⟨?_, ?_⟩ fun scope h segment hs => ?_
  · intro p hp
    cases hp
  · intro t ht
    cases ht
  · exact h.readSegment (notMem_splitChar segment hs)

theorem isSome_foldl_readSegment {scope : Option String × Option String} (l : List String) :
    (scope.1.isSome → (l.foldl readSegment scope).1.isSome) ∧
      (scope.2.isSome → (l.foldl readSegment scope).2.isSome) := by
  induction l generalizing scope with
  | nil => exact ⟨id, id⟩
  | cons segment l ih =>
    obtain ⟨hpackage, htable⟩ := isSome_readSegment scope segment
    exact ⟨fun h => ih.1 (hpackage h), fun h => ih.2 (htable h)⟩

/-- The first piece of a text starts as the text does. -/
theorem splitChar_start {start : String} (hstart : '/' ∉ start.toList) (rest : String) :
    ∃ y ys, splitChar (start ++ rest) '/' = (start ++ y) :: ys := by
  cases hrest : splitChar rest '/' with
  | nil => exact absurd hrest (splitChar_ne_nil rest '/')
  | cons y ys =>
    refine ⟨y, ys, ?_⟩
    have hfree : ∀ x ∈ (start ++ y) :: ys, '/' ∉ x.toList := by
      have hpieces := notMem_splitChar (s := rest) (c := '/')
      rw [hrest, List.forall_mem_cons] at hpieces
      refine List.forall_mem_cons.mpr ⟨?_, hpieces.2⟩
      rw [String.toList_append, List.mem_append, not_or]
      exact ⟨hstart, hpieces.1⟩
    have hjoin : joinStr ((start ++ y) :: ys) '/' = start ++ rest := by
      rw [← joinStr_splitChar rest '/', hrest]
      cases ys <;> simp [joinStr, List.intercalate_cons_cons]
    rw [← hjoin, splitChar_joinStr (List.cons_ne_nil _ _) hfree]

theorem splitChar_tableText (s p t : String) : splitChar (tableText s p t) '/' =
    splitChar ("service:" ++ s) '/' ++ (splitChar ("package:" ++ p) '/' ++
      splitChar ("table:" ++ t) '/') := by
  rw [tableText, splitChar_joinStr_parts (List.cons_ne_nil _ _)]
  simp only [List.flatMap_cons, List.flatMap_nil, List.append_nil]

/-- The path of a table has a package and a table, of one segment each. -/
theorem scope_tableText (s p t : String) : ∃ p' t', OneSegment p' t' ∧
    parseResourceScope (tableText s p t) = (some p', some t') := by
  have hsome : (parseResourceScope (tableText s p t)).1.isSome ∧
      (parseResourceScope (tableText s p t)).2.isSome := by
    obtain ⟨y, ys, hpackage⟩ := @splitChar_start "package:" (by decide) p
    obtain ⟨z, zs, htable⟩ := @splitChar_start "table:" (by decide) t
    rw [parseResourceScope_eq, splitChar_tableText, hpackage, htable, List.foldl_append,
      List.foldl_append, List.foldl_cons, List.foldl_cons, readSegment_package, readSegment_table]
    refine ⟨(isSome_foldl_readSegment zs).1 ?_, (isSome_foldl_readSegment zs).2 rfl⟩
    exact (isSome_foldl_readSegment ys).1 rfl
  obtain ⟨hp, ht⟩ := segmentScope_parseResourceScope (tableText s p t)
  obtain ⟨p', hp'⟩ := Option.isSome_iff_exists.mp hsome.1
  obtain ⟨t', ht'⟩ := Option.isSome_iff_exists.mp hsome.2
  exact ⟨p', t', ⟨hp p' hp', ht t' ht'⟩, Prod.ext hp' ht'⟩

section OneSegment

variable {s p t : String} (h : OneSegment p t)

include h

theorem OneSegment.splitChar_tableText : splitChar (tableText s p t) '/' =
    splitChar ("service:" ++ s) '/' ++ ["package:" ++ p, "table:" ++ t] := by
  have hsingle : ∀ start rest : String, '/' ∉ start.toList → '/' ∉ rest.toList →
      splitChar (start ++ rest) '/' = [start ++ rest] := by
    intro start rest hstart hrest
    have hfree : ∀ x ∈ [start ++ rest], '/' ∉ x.toList := by
      rw [List.forall_mem_singleton, String.toList_append, List.mem_append, not_or]
      exact ⟨hstart, hrest⟩
    have hjoin : joinStr [start ++ rest] '/' = start ++ rest := by
      rw [joinStr, List.map_singleton, List.intercalate_singleton, String.ofList_toList]
    rw [← hjoin, splitChar_joinStr (List.cons_ne_nil _ _) hfree, hjoin]
  rw [Authrs.splitChar_tableText, hsingle "package:" p (by decide) h.1,
    hsingle "table:" t (by decide) h.2, List.singleton_append]

/-- The path is read as that of the table. -/
theorem OneSegment.scope_tableText : parseResourceScope (tableText s p t) = (some p, some t) := by
  rw [parseResourceScope_eq, h.splitChar_tableText, List.foldl_append, List.foldl_cons,
    List.foldl_cons, List.foldl_nil, readSegment_package, readSegment_table]

theorem OneSegment.lastStarts_tableText {start : String} (hstart : start ∈ ["query:", "view:"]) :
    lastStarts start (tableText s p t) = false := by
  have hsegment : ∀ start ∈ ["query:", "view:"], start ∈ segmentPrefixes ∧ "table:" ≠ start := by
    decide
  obtain ⟨hmem, hne⟩ := hsegment start hstart
  have hlast : (splitChar (tableText s p t) '/').getLast? = some ("table:" ++ t) := by
    rw [h.splitChar_tableText, List.getLast?_append]
    rfl
  rw [lastStarts, hlast, Option.any_some, dropStart_segment hmem (by decide) hne]
  rfl

theorem OneSegment.not_ofQueryOrView : ¬OfQueryOrView (tableText s p t) := by
  rw [OfQueryOrView, h.lastStarts_tableText (by decide), h.lastStarts_tableText (by decide)]
  decide

end OneSegment

/-! ### Paths below a service -/

theorem underService_inj {service x y : String} :
    underService service x = underService service y ↔ x = y := by
  rw [underService, underService]
  split
  · exact Iff.rfl
  · rw [← String.toList_inj]
    simp only [String.toList_append, List.append_cancel_left_eq, String.toList_inj]

/-- The path of a table whose package and table are each one segment is that of no other table. -/
theorem OneSegment.of_tableUnder {p t p' t' resource : String} (h : OneSegment p' t')
    (heq : tableUnder resource (p, t) = tableUnder resource (p', t')) : OneSegment p t := by
  have hcount := congrArg (fun x : String => x.toList.count '/') (underService_inj.mp heq)
  have hp' := List.count_eq_zero.mpr h.1
  have ht' := List.count_eq_zero.mpr h.2
  have hstart : "package:".toList.count '/' = 0 := by decide
  have hmiddle : "/table:".toList.count '/' = 1 := by decide
  simp only [String.toList_append, List.count_append, hstart, hmiddle, hp', ht'] at hcount
  constructor
  · exact List.count_eq_zero.mp (by omega)
  · exact List.count_eq_zero.mp (by omega)

/-- Nor is it the path of a package. -/
theorem tableUnder_ne_packageUnder {p t p' resource : String} (h : '/' ∉ p'.toList) :
    tableUnder resource (p, t) ≠ packageUnder resource p' := by
  intro heq
  have hcount := congrArg (fun x : String => x.toList.count '/') (underService_inj.mp heq)
  have hp' := List.count_eq_zero.mpr h
  have hstart : "package:".toList.count '/' = 0 := by decide
  have hmiddle : "/table:".toList.count '/' = 1 := by decide
  simp only [String.toList_append, List.count_append, hstart, hmiddle, hp'] at hcount
  omega

/-! ### The listed actions -/

section Listed

variable {s p t a resource : String}

theorem tableInScope_some {row : String × String} :
    tableInScope (some p, some t) row = true ↔ row = (p, t) := by
  simp only [tableInScope, Bool.and_eq_true, decide_eq_true_eq, Prod.ext_iff]

theorem exists_extensibleActionName (U : CaseTable) (t : String) :
    ∃ a, a ∈ extensibleActionNames U t :=
  ⟨_, List.mem_map_of_mem (List.mem_cons_self (a := "getExtensibleFields"))⟩

/-- No CRUD name is an extensible-fields name of the same table. -/
theorem crud_ne_extensible (ha : a ∈ extensibleActionNames U t) : a ∉ crudActionNames U t := by
  intro hcrud
  obtain ⟨v, hv, rfl⟩ := List.mem_map.mp ha
  obtain ⟨w, hw, heq⟩ := List.mem_map.mp hcrud
  have hverbs : ∀ v ∈ EXTENSIBLE_VERBS, v ∉ CRUD_VERBS := by decide
  have hsame : w = v := by
    rw [← String.toList_inj, String.toList_append, String.toList_append,
      List.append_left_inj, String.toList_inj] at heq
    exact heq
  exact hverbs v hv (hsame ▸ hw)

/-- The built-in actions of queries and views are no extensible-fields actions. -/
theorem builtin_ne_extensible (ha : a ∈ extensibleActionNames U t) :
    a ∉ QUERY_ACTIONS ++ VIEW_ACTIONS := by
  intro hbuiltin
  obtain ⟨v, hv, rfl⟩ := List.mem_map.mp ha
  have hshort : ∀ b ∈ QUERY_ACTIONS ++ VIEW_ACTIONS, b.toList.length ≤ 7 := by decide
  have hlong : ∀ v ∈ EXTENSIBLE_VERBS, 7 < v.toList.length := by decide
  have hlength := hshort _ hbuiltin
  have hverb := hlong v hv
  rw [String.toList_append, List.length_append] at hlength
  omega

/-- What is listed for a query or a view. -/
theorem builtin_of_listed (h : OfQueryOrView resource) {x : String × String}
    (hx : x ∈ actionsForResource U resource (r.listTables C) (r.listCustomActions C)) :
    x.1 ∈ QUERY_ACTIONS ++ VIEW_ACTIONS := by
  rw [actionsForResource] at hx
  have hbuiltin : ∀ l : List String, x ∈ l.map (fun a => (a, resource)) → x.1 ∈ l := by
    intro l hl
    obtain ⟨b, hb, rfl⟩ := List.mem_map.mp hl
    exact hb
  rcases h with hquery | hview
  · rw [lastStarts] at hquery
    rw [hquery, if_pos rfl] at hx
    exact List.mem_append_left _ (hbuiltin _ hx)
  · rw [lastStarts] at hview
    rw [hview] at hx
    split at hx
    · exact List.mem_append_left _ (hbuiltin _ hx)
    · rw [if_pos rfl] at hx
      exact List.mem_append_right _ (hbuiltin _ hx)

/-! #### A resource that is read as a table -/

section Scope

variable (hscope : parseResourceScope resource = (some p, some t))

include hscope

/-- The extensible-fields actions of an extensible table are listed. -/
theorem listed_of_extensible (hlast : ¬OfQueryOrView resource) (hrow : (p, t) ∈ r.packages)
    (hext : r.Extensible U (p, t)) (ha : a ∈ extensibleActionNames U t) :
    (a, tableUnder resource (p, t)) ∈
      actionsForResource U resource (r.listTables C) (r.listCustomActions C) := by
  have hderived : (a, tableUnder resource (p, t)) ∈ derivedPairs U C r resource := by
    refine mem_derivedPairs_of hrow ?_ (.inr ⟨hext, ha⟩)
    rw [hscope]
    exact tableInScope_some.mpr rfl
  obtain ⟨y, hy, hfound⟩ := find?_derived ⟨_, hderived, rfl⟩
  -- The table is the only one in scope.
  obtain ⟨row, -, hrow', -, hpath⟩ := mem_derivedPairs.mp hy
  rw [hscope] at hrow'
  obtain rfl := tableInScope_some.mp hrow'
  have hname : y.1 = a := by
    have hsome := List.find?_some hfound
    simpa using hsome
  have hpair : y = (a, tableUnder resource (p, t)) := Prod.ext hname hpath
  rw [mem_actionsForResource hlast, hfound, hpair]

/-- The extensible-fields actions of another table are not. -/
theorem extensible_of_listed (ha : a ∈ extensibleActionNames U t) {x : String}
    (hlisted : (a, x) ∈
      actionsForResource U resource (r.listTables C) (r.listCustomActions C)) :
    r.Extensible U (p, t) := by
  have hlast : ¬OfQueryOrView resource :=
    fun h => builtin_ne_extensible ha (builtin_of_listed h hlisted)
  rw [mem_actionsForResource hlast] at hlisted
  rcases List.mem_append.mp (List.mem_of_find?_eq_some hlisted) with hmem | hmem
  · obtain ⟨row, -, hrow, haction, -⟩ := mem_derivedPairs.mp hmem
    rw [hscope] at hrow
    obtain rfl := tableInScope_some.mp hrow
    rcases haction with hcrud | ⟨hext, -⟩
    · exact absurd hcrud (crud_ne_extensible ha)
    · exact hext
  · obtain ⟨row, hrow, hpackage, hpair⟩ := mem_storedPairs.mp hmem
    rw [hscope] at hpackage
    obtain ⟨rfl, -⟩ := Prod.mk.inj hpair
    obtain rfl : row.1 = p := of_decide_eq_true hpackage
    exact ⟨row.2, ha, hrow⟩

/-- The path of a table with a separator in its package or its name is not listed. -/
theorem tableUnder_not_listed {p' t' : String} (hone : OneSegment p t) (hseg : ¬OneSegment p' t')
    (ha : a ∈ extensibleActionNames U t') : (a, tableUnder resource (p', t')) ∉
      actionsForResource U resource (r.listTables C) (r.listCustomActions C) := by
  intro hx
  have hlast : ¬OfQueryOrView resource :=
    fun h => builtin_ne_extensible ha (builtin_of_listed h hx)
  rw [mem_actionsForResource hlast] at hx
  rcases List.mem_append.mp (List.mem_of_find?_eq_some hx) with hmem | hmem
  · obtain ⟨row, -, hrow, -, hpath⟩ := mem_derivedPairs.mp hmem
    rw [hscope] at hrow
    obtain rfl := tableInScope_some.mp hrow
    exact hseg (hone.of_tableUnder hpath)
  · obtain ⟨row, -, hrow, hpair⟩ := mem_storedPairs.mp hmem
    rw [hscope] at hrow
    obtain rfl : row.1 = p := of_decide_eq_true hrow
    exact tableUnder_ne_packageUnder hone.1 (Prod.mk.inj hpair).2

end Scope

/-! #### The names in scope -/

/-- **An action name that the registry has in the scope of a resource**: one of a table in scope, or a
stored one. -/
def Registry.Names (U : CaseTable) (r : Registry) (resource a : String) : Prop :=
  (∃ row ∈ r.packages, tableInScope (parseResourceScope resource) row = true ∧
    r.TableAction U row a) ∨
  ∃ row ∈ r.actions, actionInScope (parseResourceScope resource) row = true ∧ row.2 = a

/-- The names that are listed are those that the registry has. -/
theorem exists_listed_iff (h : ¬OfQueryOrView resource) :
    (∃ x, (a, x) ∈ actionsForResource U resource (r.listTables C) (r.listCustomActions C)) ↔
      r.Names U resource a := by
  have hnames : r.Names U resource a ↔
      ∃ y ∈ derivedPairs U C r resource ++ storedPairs C r resource, y.1 = a := by
    simp only [List.mem_append, or_and_right, exists_or, Registry.Names]
    refine or_congr ?_ ?_
    · constructor
      · rintro ⟨row, hrow, hscope, ha⟩
        exact ⟨_, mem_derivedPairs_of hrow hscope ha, rfl⟩
      · rintro ⟨y, hy, rfl⟩
        obtain ⟨row, hrow, hscope, ha, -⟩ := mem_derivedPairs.mp hy
        exact ⟨row, hrow, hscope, ha⟩
    · constructor
      · rintro ⟨row, hrow, hscope, rfl⟩
        exact ⟨_, mem_storedPairs.mpr ⟨row, hrow, hscope, rfl⟩, rfl⟩
      · rintro ⟨y, hy, rfl⟩
        obtain ⟨row, hrow, hscope, rfl⟩ := mem_storedPairs.mp hy
        exact ⟨row, hrow, hscope, rfl⟩
  rw [hnames]
  constructor
  · rintro ⟨x, hx⟩
    exact ⟨_, List.mem_of_find?_eq_some ((mem_actionsForResource h).mp hx), rfl⟩
  · rintro ⟨y, hy, rfl⟩
    obtain ⟨z, hname, hz⟩ := exists_first hy
    exact ⟨z.2, hname ▸ (mem_actionsForResource h).mpr hz⟩

/-- No extensible-fields action of the table is listed. -/
theorem none_listed_iff : (∀ a ∈ extensibleActionNames U t, ∀ x, (a, x) ∉
    actionsForResource U resource (r.listTables C) (r.listCustomActions C)) ↔
      OfQueryOrView resource ∨ ∀ a ∈ extensibleActionNames U t, ¬r.Names U resource a := by
  by_cases hlast : OfQueryOrView resource
  · refine iff_of_true (fun a ha x hx => ?_) (.inl hlast)
    exact builtin_ne_extensible ha (builtin_of_listed hlast hx)
  · simp only [hlast, false_or, ← exists_listed_iff (C := C) hlast, not_exists]

/-! #### What the listed actions tell -/

/-- **The listed actions tell whether the last sync has flagged the table**: its extensible-fields
actions are listed, with its path, or not at all. -/
def TellsExtensible (U : CaseTable) (C : Collation) (r : Registry) (c : SyncCall) (s p t : String) :
    Prop :=
  let path := tableText s p t
  let listed := actionsForResource U path (r.listTables C) (r.listCustomActions C)
  (t ∈ c.extensibleTables →
    ∀ a ∈ extensibleActionNames U t, (a, tableUnder path (p, t)) ∈ listed) ∧
  (t ∉ c.extensibleTables → ∀ a ∈ extensibleActionNames U t, ∀ resource, (a, resource) ∉ listed)

theorem tellsExtensible_iff_extensible {c : SyncCall} (hseg : OneSegment p t)
    (hrow : (p, t) ∈ r.packages) :
    TellsExtensible U C r c s p t ↔ (t ∈ c.extensibleTables ↔ r.Extensible U (p, t)) := by
  have hscope := hseg.scope_tableText (s := s)
  obtain ⟨a, ha⟩ := exists_extensibleActionName U t
  constructor
  · rintro ⟨hflagged, hother⟩
    constructor
    · intro hmem
      exact extensible_of_listed hscope ha (hflagged hmem a ha)
    · intro hext
      by_contra hmem
      exact hother hmem a ha _ (listed_of_extensible hscope hseg.not_ofQueryOrView hrow hext ha)
  · intro h
    constructor
    · intro hmem a ha
      exact listed_of_extensible hscope hseg.not_ofQueryOrView hrow (h.mp hmem) ha
    · intro hmem a ha resource hlisted
      exact hmem (h.mpr (extensible_of_listed hscope ha hlisted))

/-- **A path with a separator in the package or the table tells** whether the table was flagged exactly
when it was not, and none of its extensible-fields actions is in the scope that the path is read as. -/
theorem tellsExtensible_iff_of_separator {c : SyncCall} (hseg : ¬OneSegment p t) :
    TellsExtensible U C r c s p t ↔ t ∉ c.extensibleTables ∧ (OfQueryOrView (tableText s p t) ∨
      ∀ a ∈ extensibleActionNames U t, ¬r.Names U (tableText s p t) a) := by
  obtain ⟨p', t', hone, hscope⟩ := scope_tableText s p t
  obtain ⟨a, ha⟩ := exists_extensibleActionName U t
  constructor
  · rintro ⟨hlisted, hother⟩
    have hmem : t ∉ c.extensibleTables :=
      fun h => tableUnder_not_listed hscope hone hseg ha (hlisted h a ha)
    exact ⟨hmem, none_listed_iff.mp (hother hmem)⟩
  · rintro ⟨hmem, hnone⟩
    exact ⟨fun h => absurd h hmem, fun _ => none_listed_iff.mpr hnone⟩

end Listed

/-- **The listed actions tell whether the last sync of a package has flagged a table** exactly when the
path of a flagged one is read as its own and one of its extensible-fields actions fits the column, and
for one that is not flagged: where the path is read as its own, no action of the call's tables, or of a
later call stored under the package, is stored as an extensible-fields action of it; where it is not,
the registry has no such action in the scope that the path is read as. -/
theorem tellsExtensible_iff (U : CaseTable) (C : Collation) {l₁ l₂ : List SyncCall} {c : SyncCall}
    {r₁ : Registry} {s p t : String} (hpackage : c.packageId = p)
    (hsync : c.registry U (Registry.after U l₁) = .ok r₁)
    (hlast : EachCall (SyncCall.apply U) (NotSynced U p) r₁ l₂)
    (htable : ∃ name ∈ c.tables, pairRow c.packageId name = .ok (p, t))
    (hcustom : ∀ d ∈ l₁ ++ c :: l₂, d.PlainCustom U) :
    TellsExtensible U C (Registry.after U (l₁ ++ c :: l₂)) c s p t ↔
      (t ∈ c.extensibleTables →
        OneSegment p t ∧ ∃ a ∈ extensibleActionNames U t, a.toList.length ≤ 255) ∧
      (t ∉ c.extensibleTables → OneSegment p t →
        ¬c.Gives U t ∧ EachCall (SyncCall.apply U) (GivesNothing U p t) r₁ l₂) ∧
      (t ∉ c.extensibleTables → ¬OneSegment p t → OfQueryOrView (tableText s p t) ∨
        ∀ a ∈ extensibleActionNames U t,
          ¬(Registry.after U (l₁ ++ c :: l₂)).Names U (tableText s p t) a) := by
  by_cases hseg : OneSegment p t
  · -- The table keeps its row, and what later calls store decides together with the sync.
    have hafter : Registry.after U (l₁ ++ c :: l₂) = finalState (SyncCall.apply U) r₁ l₂ := by
      have happly : (Registry.after U l₁ |> fun r => c.apply U r) = r₁ := by
        simp only [SyncCall.apply, hsync]
        rfl
      rw [Registry.after, finalState, List.foldl_append, List.foldl_cons, ← happly]
      rfl
    have hrow : (p, t) ∈ r₁.packages :=
      (Registry.mem_packages_syncPackage hsync).mpr (.inr htable)
    obtain ⟨name, -, hname⟩ := htable
    have hid : varcharReq 255 c.packageId = .ok p := (pairRow_eq_ok.mp hname).1
    have hfirst : r₁.Extensible U (p, t) ↔ c.Gives U t := by
      rw [extensible_sync (hcustom c (by simp)) hsync, and_iff_right hid]
      refine or_iff_right ?_
      rintro ⟨-, hne⟩
      exact hne hpackage.symm
    have hext := extensible_after (t := t) (fun d hd => hcustom d (by simp [hd])) hlast
    rw [hafter, tellsExtensible_iff_extensible hseg (table_after hrow hlast), hext, hfirst]
    simp only [hseg, not_true_eq_false, false_imp_iff, imp_true_iff, and_true, true_and,
      true_imp_iff]
    -- A flagged table has to store one of its names, another one has to store none of them.
    by_cases hflag : t ∈ c.extensibleTables
    · simp only [hflag, true_iff, true_imp_iff, not_true_eq_false, false_imp_iff, and_true]
      constructor
      · rintro (hgives | hlater)
        · exact fits_of_gives hgives
        · by_contra hfits
          exact hlater (EachCall.of_forall (fun r d _ _ hgives => hfits (fits_of_gives hgives)) r₁ l₂)
      · rintro ⟨a, ha, hlen⟩
        have hstored : varcharReq 255 a = .ok a := by
          rw [varcharReq, varchar_of_le hlen]
        exact .inl ⟨a, ha, a, .inr ⟨t, hflag, ha⟩, hstored⟩
    · simp only [hflag, false_iff, false_imp_iff, not_false_eq_true, true_imp_iff, true_and, not_or,
        not_not]
  · -- The path of a name with a slash is read as that of something else.
    rw [tellsExtensible_iff_of_separator hseg]
    simp only [hseg, not_false_eq_true, false_imp_iff, imp_true_iff, false_and, true_imp_iff,
      true_and, imp_false]
    refine and_congr_right fun hflag => ?_
    simp only [hflag, not_false_eq_true, true_imp_iff]

/-! ### Names that coincide -/

/-- A sync of contacts, flagged, and of notes. -/
def flaggedSync : SyncCall := ⟨"crm", ["contacts", "notes"], ["contacts"], []⟩

/-- A sync of contacts and of a table whose CRUD actions are the extensible-fields ones of contacts. -/
def shadowSync : SyncCall := ⟨"crm", ["contacts", "extensible_fields_contacts"], [], []⟩

theorem flaggedSync_fits : flaggedSync.Fits := by
  constructor <;> decide

theorem shadowSync_fits : shadowSync.Fits := by
  constructor <;> decide

theorem flaggedSync_tells :
    TellsExtensible asciiCase .bytewise (Registry.after asciiCase [flaggedSync]) flaggedSync
      "core" "crm" "contacts" := by
  obtain ⟨r, hr, -, -⟩ := flaggedSync_fits.sync
  have htable : pairRow flaggedSync.packageId "contacts" = .ok ("crm", "contacts") :=
    pairRow_of_le (by decide) (by decide)
  have hcustom : ∀ d ∈ ([] : List SyncCall) ++ flaggedSync :: [], d.PlainCustom asciiCase := by
    simp [SyncCall.PlainCustom, flaggedSync]
  have hsync : flaggedSync.registry asciiCase (Registry.after asciiCase []) = .ok r := hr
  have hlast : EachCall (SyncCall.apply asciiCase) (NotSynced asciiCase "crm") r [] := trivial
  refine (tellsExtensible_iff asciiCase .bytewise rfl hsync hlast
    ⟨_, List.mem_cons_self, htable⟩ hcustom).mpr ⟨fun _ => ⟨?_, ?_⟩, fun hflag => ?_, fun hflag => ?_⟩
  · decide
  · exact ⟨"getExtensibleFieldsContacts", by decide, by decide⟩
  · exact absurd List.mem_cons_self hflag
  · exact absurd List.mem_cons_self hflag

/-- **A CRUD action that makes another table extensible**: contacts is not flagged, and its
extensible-fields actions are listed. -/
theorem crudAction_as_extensible :
    ¬ ∀ (l : List SyncCall) (c : SyncCall) (s p t : String), c.packageId = p → t ∈ c.tables →
      (∀ d ∈ l ++ [c], d.PlainCustom asciiCase) →
        TellsExtensible asciiCase .bytewise (Registry.after asciiCase (l ++ [c])) c s p t := by
  intro h
  have htells := h [] shadowSync "core" "crm" "contacts" rfl List.mem_cons_self
    (by simp [SyncCall.PlainCustom, shadowSync])
  obtain ⟨r, hr, htables, hactions⟩ := shadowSync_fits.sync
  have hafter : Registry.after asciiCase ([] ++ [shadowSync]) = r := by
    have hregistry : shadowSync.registry asciiCase ⟨∅, ∅⟩ = .ok r := hr
    simp [Registry.after, finalState, SyncCall.apply, hregistry, Except.toOption]
  have hrow : ("crm", "contacts") ∈ r.packages := (htables _).mpr ⟨"contacts", by decide, rfl⟩
  have hstored : ("crm", "getExtensibleFieldsContacts") ∈ r.actions := by
    refine (hactions _).mpr ⟨_, mem_allActions.mpr (.inl ⟨"extensible_fields_contacts", ?_, ?_⟩), rfl⟩
    · decide
    · decide
  rw [hafter, tellsExtensible_iff_extensible (by decide) hrow] at htells
  have hext : r.Extensible asciiCase ("crm", "contacts") :=
    ⟨"getExtensibleFieldsContacts", by decide, hstored⟩
  exact absurd (htells.mpr hext) List.not_mem_nil

end Authrs
