import Authrs.Packages.Atomicity

/-!
# The actions of a resource

`get_actions_for_resource` derives the actions of the tables in scope from their names, adds every
stored action of the packages in scope, and keeps one pair for each action name. The stored actions are
those of all tables of a package, so at table scope the actions of the other tables are listed with the
path of the package; and of two pairs with one action name only the first is listed.

## Main definitions

* `ScopePath`: a resource path at service, package, table or column scope
* `Registry.TableAction`, `Registry.Genuine`: the actions of a table, and the custom ones
* `Applicable`: the pairs that apply at a path
* `ListsApplicable`: the listed pairs are the applicable ones
* `OneEach`, `NoneLeaks`: no two applicable pairs share a name, and no other action is in scope

## Main results

* `mem_actionsForResource`: what is listed
* `listsApplicable_iff`: the listed pairs are the applicable ones when names are apart and none leaks
* `notesAction_leaks`: at the scope of a table, an action of another one is listed
-/

namespace Authrs

open Interaction Relational Schema

/-- A part of a path. -/
abbrev PathId : Type := { s : String // '/' ∉ s.toList }

/-- **A resource path**, down to its deepest segment. -/
inductive ScopePath
  | service (s : PathId)
  | package (s p : PathId)
  | table (s p t : PathId)
  | column (s p t c : PathId)

namespace ScopePath

def serviceSegment : ScopePath → String
  | service s | package s _ | table s _ _ | column s _ _ _ => "service:" ++ s.val

def segments : ScopePath → List String
  | service s => ["service:" ++ s.val]
  | package s p => ["service:" ++ s.val, "package:" ++ p.val]
  | table s p t => ["service:" ++ s.val, "package:" ++ p.val, "table:" ++ t.val]
  | column s p t c =>
    ["service:" ++ s.val, "package:" ++ p.val, "table:" ++ t.val, "column:" ++ c.val]

/-- The text of a path. -/
def text (path : ScopePath) : String := joinStr path.segments '/'

/-- The package and the table of a path. -/
def scope : ScopePath → Option String × Option String
  | service _ => (none, none)
  | package _ p => (some p.val, none)
  | table _ p t | column _ p t _ => (some p.val, some t.val)

end ScopePath

variable {U : CaseTable} {C : Collation} {r : Registry} {path : ScopePath} {x : String × String}

/-! ### Paths -/

/-- A text with another first character does not have the prefix. -/
theorem dropStart_of_head {start pre : String} (hstart : start.toList.head? ≠ none)
    (hpre : pre.toList.head? ≠ none) (hne : pre.toList.head? ≠ start.toList.head?) (rest : String) :
    dropStart start (pre ++ rest) = none := by
  rw [dropStart, String.toList_append]
  cases hs : start.toList with
  | nil => exact absurd (congrArg List.head? hs) hstart
  | cons a l =>
    cases hp : pre.toList with
    | nil => exact absurd (congrArg List.head? hp) hpre
    | cons b l' =>
      rw [hs, hp, List.head?_cons, List.head?_cons, ne_eq, Option.some_inj] at hne
      rw [List.cons_append, List.dropPrefix?, if_neg (by simpa using hne), Option.map_none]

/-- What a segment starts with. -/
def segmentPrefixes : List String := ["service:", "package:", "table:", "column:", "query:", "view:"]

theorem dropStart_segment {start pre : String} (hstart : start ∈ segmentPrefixes)
    (hpre : pre ∈ segmentPrefixes) (hne : pre ≠ start) (rest : String) :
    dropStart start (pre ++ rest) = none := by
  have hsome : ∀ x ∈ segmentPrefixes, x.toList.head? ≠ none := by decide
  have hheads : ∀ x ∈ segmentPrefixes, ∀ y ∈ segmentPrefixes, x ≠ y →
      x.toList.head? ≠ y.toList.head? := by decide
  exact dropStart_of_head (hsome start hstart) (hsome pre hpre) (hheads pre hpre start hstart hne) rest

theorem ScopePath.splitChar_text (path : ScopePath) : splitChar path.text '/' = path.segments := by
  have hfree : ∀ (pre : String) (id : PathId), '/' ∉ pre.toList → '/' ∉ (pre ++ id.val).toList := by
    intro pre id hpre
    rw [String.toList_append, List.mem_append]
    rintro (h | h)
    · exact hpre h
    · exact id.property h
  refine splitChar_joinStr ?_ ?_
  · cases path <;> exact List.cons_ne_nil _ _
  · cases path <;>
      simp only [segments, List.forall_mem_cons, List.not_mem_nil, false_imp_iff, implies_true,
        and_true] <;>
      (repeat' apply And.intro) <;> exact hfree _ _ (by decide)

theorem ScopePath.scope_eq (path : ScopePath) : parseResourceScope path.text = path.scope := by
  rw [parseResourceScope, path.splitChar_text]
  have hother : ∀ start ∈ ["package:", "table:"], ∀ pre ∈ segmentPrefixes, pre ≠ start →
      ∀ rest, dropStart start (pre ++ rest) = none := by
    intro start hstart pre hpre hne rest
    have hsegment : ∀ start ∈ ["package:", "table:"], start ∈ segmentPrefixes := by decide
    exact dropStart_segment (hsegment start hstart) hpre hne rest
  have hpackage := hother "package:" (by decide)
  have htable := hother "table:" (by decide)
  cases path <;> simp only [segments, List.foldl_cons, List.foldl_nil, dropStart_append, scope,
    hpackage "service:" (by decide) (by decide), htable "service:" (by decide) (by decide),
    hpackage "table:" (by decide) (by decide), hpackage "column:" (by decide) (by decide),
    htable "column:" (by decide) (by decide)]

theorem ScopePath.servicePrefix_eq (path : ScopePath) :
    servicePrefix path.text = path.serviceSegment := by
  rw [servicePrefix, path.splitChar_text]
  cases path <;> simp [segments, serviceSegment, dropStart_append]

/-- The last segment of a resource starts so. -/
def lastStarts (start resource : String) : Bool :=
  (splitChar resource '/').getLast?.any fun s => (dropStart start s).isSome

/-- The resource is that of a query or of a view. -/
def OfQueryOrView (resource : String) : Prop :=
  lastStarts "query:" resource = true ∨ lastStarts "view:" resource = true

/-- The last segment of a path is neither a query nor a view. -/
theorem ScopePath.last_segment {start : String} (hstart : start ∈ ["query:", "view:"])
    (path : ScopePath) : lastStarts start path.text = false := by
  have hsegment : ∀ start ∈ ["query:", "view:"], start ∈ segmentPrefixes ∧
      ∀ pre ∈ ["service:", "package:", "table:", "column:"], pre ∈ segmentPrefixes ∧ pre ≠ start := by
    decide
  obtain ⟨hmem, hne⟩ := hsegment start hstart
  have hnone : ∀ pre ∈ ["service:", "package:", "table:", "column:"], ∀ rest,
      dropStart start (pre ++ rest) = none := fun pre hpre rest =>
    dropStart_segment hmem (hne pre hpre).1 (hne pre hpre).2 rest
  rw [lastStarts, path.splitChar_text]
  cases path with
  | service s => simp [segments, hnone "service:" (by decide)]
  | package s p => simp [segments, hnone "package:" (by decide)]
  | table s p t => simp [segments, hnone "table:" (by decide)]
  | column s p t c => simp [segments, hnone "column:" (by decide)]

theorem ScopePath.not_ofQueryOrView (path : ScopePath) : ¬OfQueryOrView path.text := by
  rw [OfQueryOrView, path.last_segment (by decide), path.last_segment (by decide)]
  decide

namespace ScopePath

/-- The path of a package, below the service of a path. -/
def packagePath (path : ScopePath) (packageId : String) : String :=
  path.serviceSegment ++ "/" ++ ("package:" ++ packageId)

/-- The path of a table, below the service of a path. -/
def tablePath (path : ScopePath) (row : String × String) : String :=
  path.serviceSegment ++ "/" ++ ("package:" ++ row.1 ++ "/table:" ++ row.2)

theorem underService_eq (path : ScopePath) (rest : String) :
    underService path.serviceSegment rest = path.serviceSegment ++ "/" ++ rest := by
  have hne : path.serviceSegment.isEmpty = false := by
    cases path <;> simp [serviceSegment]
  rw [underService, hne]
  rfl

end ScopePath

/-! ### What applies, and what is listed -/

/-- A table is extensible when one of its extensible-fields actions is stored. -/
def Registry.Extensible (U : CaseTable) (r : Registry) (row : String × String) : Prop :=
  ∃ a ∈ extensibleActionNames U row.2, (row.1, a) ∈ r.actions

/-- The actions of a table. -/
def Registry.TableAction (U : CaseTable) (r : Registry) (row : String × String) (a : String) : Prop :=
  a ∈ crudActionNames U row.2 ∨ r.Extensible U row ∧ a ∈ extensibleActionNames U row.2

/-- A stored action that no table of its package gives. -/
def Registry.Genuine (U : CaseTable) (r : Registry) (row : String × String) : Prop :=
  ∀ t, (row.1, t) ∈ r.packages →
    row.2 ∉ crudActionNames U t ∧ row.2 ∉ extensibleActionNames U t

/-- **The pairs that apply at a path**: the actions of the tables in scope, each with the path of its
table, and the custom actions of the packages in scope, each with the path of its package. -/
inductive Applicable (U : CaseTable) (r : Registry) (path : ScopePath) : String × String → Prop
  | table {row : String × String} {a : String} (hrow : row ∈ r.packages)
    (hscope : tableInScope path.scope row = true) (ha : r.TableAction U row a) :
    Applicable U r path (a, path.tablePath row)
  | custom {row : String × String} (hrow : row ∈ r.actions)
    (hscope : actionInScope path.scope row = true) (hgenuine : r.Genuine U row) :
    Applicable U r path (row.2, path.packagePath row.1)

/-- **The listed pairs are the applicable ones.** -/
def ListsApplicable (U : CaseTable) (C : Collation) (r : Registry) (path : ScopePath) : Prop :=
  ∀ x, x ∈ actionsForResource U path.text (r.listTables C) (r.listCustomActions C) ↔
    Applicable U r path x

/-- No two applicable pairs share an action name. -/
def OneEach (U : CaseTable) (r : Registry) (path : ScopePath) : Prop :=
  ∀ x y, Applicable U r path x → Applicable U r path y → x.1 = y.1 → x = y

/-- A stored action in scope is a custom one, or one of a table in scope. -/
def NoneLeaks (U : CaseTable) (r : Registry) (path : ScopePath) : Prop :=
  ∀ row ∈ r.actions, actionInScope path.scope row = true →
    r.Genuine U row ∨ ∃ t ∈ r.packages, tableInScope path.scope t = true ∧ r.TableAction U t row.2

theorem mem_tableActions {service : String} {row : String × String} :
    x ∈ tableActions U service (r.listCustomActions C) row ↔ r.TableAction U row x.1 ∧
      x.2 = underService service ("package:" ++ row.1 ++ "/table:" ++ row.2) := by
  have hextensible : ((extensibleActionNames U row.2).any fun a =>
      (r.listCustomActions C).contains (row.1, a)) = true ↔ r.Extensible U row := by
    simp only [List.any_eq_true, List.contains_iff_mem, Registry.mem_listCustomActions,
      Registry.Extensible]
  simp only [tableActions, Registry.TableAction]
  by_cases hext : r.Extensible U row
  · rw [if_pos (hextensible.mpr hext), List.mem_append, List.mem_map, List.mem_map]
    constructor
    · rintro (⟨a, ha, rfl⟩ | ⟨a, ha, rfl⟩)
      · exact ⟨.inl ha, rfl⟩
      · exact ⟨.inr ⟨hext, ha⟩, rfl⟩
    · rintro ⟨ha | ⟨-, ha⟩, hpath⟩
      · exact .inl ⟨x.1, ha, Prod.ext rfl hpath.symm⟩
      · exact .inr ⟨x.1, ha, Prod.ext rfl hpath.symm⟩
  · rw [if_neg fun h => hext (hextensible.mp h), List.mem_map]
    constructor
    · rintro ⟨a, ha, rfl⟩
      exact ⟨.inl ha, rfl⟩
    · rintro ⟨ha | ⟨h, -⟩, hpath⟩
      · exact ⟨x.1, ha, Prod.ext rfl hpath.symm⟩
      · exact absurd h hext

/-- The pairs of the tables in the scope of a resource. -/
def derivedPairs (U : CaseTable) (C : Collation) (r : Registry) (resource : String) :
    List (String × String) :=
  ((r.listTables C).filter (tableInScope (parseResourceScope resource))).flatMap
    (tableActions U (servicePrefix resource) (r.listCustomActions C))

/-- The pairs of the stored actions in the scope of a resource. -/
def storedPairs (C : Collation) (r : Registry) (resource : String) : List (String × String) :=
  ((r.listCustomActions C).filter (actionInScope (parseResourceScope resource))).map fun row =>
    (row.2, underService (servicePrefix resource) ("package:" ++ row.1))

/-- The path of a table, below the service of a resource. -/
def tableUnder (resource : String) (row : String × String) : String :=
  underService (servicePrefix resource) ("package:" ++ row.1 ++ "/table:" ++ row.2)

/-- The path of a package, below the service of a resource. -/
def packageUnder (resource packageId : String) : String :=
  underService (servicePrefix resource) ("package:" ++ packageId)

theorem mem_derivedPairs {resource : String} : x ∈ derivedPairs U C r resource ↔
    ∃ row ∈ r.packages, tableInScope (parseResourceScope resource) row = true ∧
      r.TableAction U row x.1 ∧ x.2 = tableUnder resource row := by
  simp only [derivedPairs, List.mem_flatMap, List.mem_filter, mem_tableActions,
    Registry.mem_listTables, and_assoc, tableUnder]

theorem mem_derivedPairs_of {resource a : String} {row : String × String} (hrow : row ∈ r.packages)
    (hscope : tableInScope (parseResourceScope resource) row = true) (ha : r.TableAction U row a) :
    (a, tableUnder resource row) ∈ derivedPairs U C r resource :=
  mem_derivedPairs.mpr ⟨row, hrow, hscope, ha, rfl⟩

theorem mem_storedPairs {resource : String} : x ∈ storedPairs C r resource ↔
    ∃ row ∈ r.actions, actionInScope (parseResourceScope resource) row = true ∧
      x = (row.2, packageUnder resource row.1) := by
  simp only [storedPairs, List.mem_map, List.mem_filter, Registry.mem_listCustomActions, and_assoc,
    eq_comm, packageUnder]

/-- **What is listed**: the first pair of each action name. -/
theorem mem_actionsForResource {resource : String} (h : ¬OfQueryOrView resource) :
    x ∈ actionsForResource U resource (r.listTables C) (r.listCustomActions C) ↔
      (derivedPairs U C r resource ++ storedPairs C r resource).find? (fun y => y.1 = x.1) =
        some x := by
  rw [OfQueryOrView, not_or, Bool.not_eq_true, Bool.not_eq_true, lastStarts, lastStarts] at h
  rw [actionsForResource, h.1, h.2]
  exact mem_distinctBy

namespace ScopePath

theorem mem_derivedPairs : x ∈ derivedPairs U C r path.text ↔
    ∃ row ∈ r.packages, tableInScope path.scope row = true ∧ r.TableAction U row x.1 ∧
      x.2 = path.tablePath row := by
  simp only [Authrs.mem_derivedPairs, tableUnder, path.scope_eq, path.servicePrefix_eq,
    path.underService_eq, tablePath]

theorem mem_storedPairs : x ∈ storedPairs C r path.text ↔
    ∃ row ∈ r.actions, actionInScope path.scope row = true ∧ x = (row.2, path.packagePath row.1) := by
  simp only [Authrs.mem_storedPairs, packageUnder, path.scope_eq, path.servicePrefix_eq,
    path.underService_eq, packagePath]

theorem mem_actionsForResource :
    x ∈ actionsForResource U path.text (r.listTables C) (r.listCustomActions C) ↔
      (derivedPairs U C r path.text ++ storedPairs C r path.text).find? (fun y => y.1 = x.1) =
        some x :=
  Authrs.mem_actionsForResource path.not_ofQueryOrView

end ScopePath

/-! ### Exactness -/

/-- A stored action that is no custom one is an action of a table of its package. -/
theorem tableAction_of_not_genuine {row : String × String} (hrow : row ∈ r.actions)
    (h : ¬r.Genuine U row) : ∃ t ∈ r.packages, t.1 = row.1 ∧ r.TableAction U t row.2 := by
  simp only [Registry.Genuine, not_forall] at h
  obtain ⟨t, ht, hname⟩ := h
  refine ⟨(row.1, t), ht, rfl, ?_⟩
  by_cases hcrud : row.2 ∈ crudActionNames U t
  · exact .inl hcrud
  · have hext : row.2 ∈ extensibleActionNames U t := by
      by_contra hext
      exact hname ⟨hcrud, hext⟩
    exact .inr ⟨⟨row.2, hext, hrow⟩, hext⟩

/-- What is listed of a name that a table in scope gives is a pair of such a table. -/
theorem find?_derived {a resource : String} (h : ∃ y ∈ derivedPairs U C r resource, y.1 = a) :
    ∃ y ∈ derivedPairs U C r resource,
      (derivedPairs U C r resource ++ storedPairs C r resource).find? (fun z => z.1 = a) =
        some y := by
  obtain ⟨y, hy, rfl⟩ := h
  have hsome : ((derivedPairs U C r resource).find? fun z => z.1 = y.1).isSome :=
    List.find?_isSome.mpr ⟨y, hy, decide_eq_true rfl⟩
  obtain ⟨z, hz⟩ := Option.isSome_iff_exists.mp hsome
  exact ⟨z, List.mem_of_find?_eq_some hz, by rw [List.find?_append, hz, Option.some_or]⟩

/-- The first pair of a name. -/
theorem exists_first {l : List (String × String)} (h : x ∈ l) :
    ∃ y, y.1 = x.1 ∧ l.find? (fun z => z.1 = y.1) = some y := by
  have hsome : (l.find? fun z => z.1 = x.1).isSome := List.find?_isSome.mpr ⟨x, h, decide_eq_true rfl⟩
  obtain ⟨y, hy⟩ := Option.isSome_iff_exists.mp hsome
  have hname : y.1 = x.1 := by
    have hfound := List.find?_some hy
    simpa using hfound
  exact ⟨y, hname, by rw [hname, hy]⟩

/-- Of each name that applies something is listed. -/
theorem exists_listed (h : Applicable U r path x) : ∃ y, y.1 = x.1 ∧
    y ∈ actionsForResource U path.text (r.listTables C) (r.listCustomActions C) := by
  have hmem : x ∈ derivedPairs U C r path.text ++ storedPairs C r path.text := by
    cases h with
    | table hrow hscope ha =>
      exact List.mem_append_left _ (ScopePath.mem_derivedPairs.mpr ⟨_, hrow, hscope, ha, rfl⟩)
    | custom hrow hscope _ =>
      exact List.mem_append_right _ (ScopePath.mem_storedPairs.mpr ⟨_, hrow, hscope, rfl⟩)
  obtain ⟨y, hname, hy⟩ := exists_first hmem
  exact ⟨y, hname, ScopePath.mem_actionsForResource.mpr hy⟩

/-- What is listed applies when none leaks. -/
theorem applicable_of_listed (h : NoneLeaks U r path)
    (hx : x ∈ actionsForResource U path.text (r.listTables C) (r.listCustomActions C)) :
    Applicable U r path x := by
  rw [ScopePath.mem_actionsForResource] at hx
  have hderived : x ∈ derivedPairs U C r path.text → Applicable U r path x := by
    intro hmem
    obtain ⟨row, hrow, hscope, ha, hpath⟩ := ScopePath.mem_derivedPairs.mp hmem
    obtain ⟨a, p⟩ := x
    obtain rfl : p = path.tablePath row := hpath
    exact .table hrow hscope ha
  rcases List.mem_append.mp (List.mem_of_find?_eq_some hx) with hmem | hmem
  · exact hderived hmem
  · obtain ⟨row, hrow, hscope, rfl⟩ := ScopePath.mem_storedPairs.mp hmem
    rcases h row hrow hscope with hgenuine | ⟨t, ht, htscope, ha⟩
    · exact .custom hrow hscope hgenuine
    · -- The pair of the table comes first.
      have hpair : (row.2, path.tablePath t) ∈ derivedPairs U C r path.text :=
        ScopePath.mem_derivedPairs.mpr ⟨t, ht, htscope, ha, rfl⟩
      obtain ⟨y, hy, hfound⟩ := find?_derived ⟨_, hpair, rfl⟩
      rw [hfound] at hx
      obtain rfl := Option.some.inj hx
      exact hderived hy

/-- Of each stored action in scope something is listed. -/
theorem exists_applicable_of_stored (h : ListsApplicable U C r path) {row : String × String}
    (hrow : row ∈ r.actions) (hscope : actionInScope path.scope row = true) :
    ∃ y, y.1 = row.2 ∧ Applicable U r path y := by
  have hmem : (row.2, path.packagePath row.1) ∈ derivedPairs U C r path.text ++ storedPairs C r path.text :=
    List.mem_append_right _ (ScopePath.mem_storedPairs.mpr ⟨row, hrow, hscope, rfl⟩)
  obtain ⟨y, hname, hy⟩ := exists_first hmem
  exact ⟨y, hname, (h y).mp (ScopePath.mem_actionsForResource.mpr hy)⟩

/-- Where two packages are in scope, all tables are. -/
theorem tableInScope_of_two {scope : Option String × Option String} {row row' t : String × String}
    (h : actionInScope scope row = true) (h' : actionInScope scope row' = true)
    (hne : row.1 ≠ row'.1) : tableInScope scope t = true := by
  obtain ⟨_ | p, o⟩ := scope
  · rfl
  · simp only [actionInScope, decide_eq_true_eq] at h h'
    exact absurd (h.trans h'.symm) hne

/-- **The listed pairs are the applicable ones** exactly when no two applicable pairs share an action
name, and every stored action in scope is a custom one or one of a table in scope. -/
theorem listsApplicable_iff (U : CaseTable) (C : Collation) (r : Registry) (path : ScopePath) :
    ListsApplicable U C r path ↔ OneEach U r path ∧ NoneLeaks U r path := by
  constructor
  · intro h
    constructor
    · intro x y hx hy hname
      have hx' := ScopePath.mem_actionsForResource.mp ((h x).mpr hx)
      have hy' := ScopePath.mem_actionsForResource.mp ((h y).mpr hy)
      rw [hname, hy'] at hx'
      exact (Option.some.inj hx').symm
    · intro row hrow hscope
      by_contra hneither
      rw [not_or] at hneither
      obtain ⟨hgenuine, htables⟩ := hneither
      obtain ⟨y, hname, hy⟩ := exists_applicable_of_stored h hrow hscope
      obtain ⟨t, ht, htpackage, ha⟩ := tableAction_of_not_genuine hrow hgenuine
      cases hy with
      | @table t' a' ht' htscope ha' =>
        obtain rfl : a' = row.2 := hname
        exact htables ⟨t', ht', htscope, ha'⟩
      | @custom row' hrow' hscope' hgenuine' =>
        by_cases hpackage : row'.1 = row.1
        · have hsame : row' = row := Prod.ext hpackage hname
          exact hgenuine (hsame ▸ hgenuine')
        · -- Two packages are in scope, so every table is.
          refine htables ⟨t, ht, ?_, ha⟩
          exact tableInScope_of_two hscope' hscope hpackage
  · rintro ⟨hone, hleak⟩ x
    constructor
    · exact applicable_of_listed hleak
    · intro hx
      obtain ⟨y, hname, hlisted⟩ := exists_listed (C := C) hx
      obtain rfl := hone x y hx (applicable_of_listed hleak hlisted) hname.symm
      exact hlisted

/-! ### A sibling table -/

/-- The registries that calls of `sync` produce. -/
inductive Registry.Synced (U : CaseTable) : Registry → Prop
  | empty : Registry.Synced U ⟨∅, ∅⟩
  | sync {r r' : Registry} (c : SyncCall) (h : Registry.Synced U r) (hsync : c.registry U r = .ok r') :
    Registry.Synced U r'

/-- A sync of contacts and notes. -/
def notesSync : SyncCall := ⟨"crm", ["contacts", "notes"], [], []⟩

theorem notesSync_fits : notesSync.Fits := by
  constructor <;> decide

/-- The path of contacts. -/
def contactsPath : ScopePath :=
  .table ⟨"core", by decide⟩ ⟨"crm", by decide⟩ ⟨"contacts", by decide⟩

/-- **At the scope of contacts, `getNotes` is listed**, with the path of the package. -/
theorem notesAction_leaks :
    ¬ ∀ r : Registry, r.Synced asciiCase → ∀ path, ListsApplicable asciiCase .bytewise r path := by
  intro h
  obtain ⟨r, hr, htables, hactions⟩ := notesSync_fits.sync
  have hlists := h r (.sync notesSync .empty hr) contactsPath
  -- The action of notes is in scope, and listed as no other table's action comes first.
  have hstored : ("crm", "getNotes") ∈ r.actions := by
    refine (hactions _).mpr ⟨"getNotes", mem_allActions.mpr (.inl ⟨"notes", ?_, ?_⟩), rfl⟩
    · decide
    · decide
  obtain ⟨y, hname, hy⟩ := exists_applicable_of_stored hlists hstored rfl
  cases hy with
  | @table row a hrow hscope ha =>
    obtain ⟨t, ht, rfl⟩ := (htables row).mp hrow
    simp only [contactsPath, ScopePath.scope, tableInScope, Bool.and_eq_true, decide_eq_true_eq] at hscope
    obtain rfl : t = "contacts" := hscope.2
    obtain rfl : a = "getNotes" := hname
    have hother : "getNotes" ∉ crudActionNames asciiCase "contacts" ∧
        "getNotes" ∉ extensibleActionNames asciiCase "contacts" := by decide
    rcases ha with hcrud | ⟨-, hext⟩
    · exact hother.1 hcrud
    · exact hother.2 hext
  | @custom row hrow hscope hgenuine =>
    have hnotes : ("crm", "notes") ∈ r.packages := (htables _).mpr ⟨"notes", by decide, rfl⟩
    obtain ⟨a, -, rfl⟩ := (hactions row).mp hrow
    obtain rfl : a = "getNotes" := hname
    exact (hgenuine "notes" hnotes).1 (by decide)

end Authrs
