import Authrs.Base.Error
import Authrs.Base.Text
import Authrs.Interaction.Program
import Authrs.Relational.Distinct
import Authrs.Relational.Table
import Authrs.Store.Accounts
import Mathlib.Data.Prod.Lex

/-!
# The registry of packages

The tables `_auth_packages` and `_auth_package_actions`, the statements of `PackagesRepo` about them,
and the schema that the server keeps in memory. They are a part of the state that the other services
do not touch, with an interface of its own. The transaction of `sync_package` is one step; each
listing and the write of the schema is another.

## Main definitions

* `Registry`: the two tables
* `Registry.syncPackage`: the transaction of `sync_package`
* `Collation`: the order in which the rows of a table are listed
* `PackagesRequest`, `PackagesState`, `packages`: the interface, with its meaning `handlePackages`

## Main results

* `mem_insertPairs`: the rows after the inserts
* `Registry.mem_packages_syncPackage`, `Registry.mem_actions_syncPackage`: the rows after a sync
-/

namespace Authrs

open Interaction Relational

/-- Rows of a package and a name, each once: both columns are the primary key. -/
abbrev Pairs : Type := Table (id : String × String → String × String)

/-- `_auth_packages` and `_auth_package_actions`. -/
structure Registry where
  packages : Pairs
  actions : Pairs

/-- A row: both columns are `VARCHAR(255)`. -/
def pairRow (packageId name : String) : Except SqlError (String × String) := do
  let packageId ← varcharReq 255 packageId
  let name ← varcharReq 255 name
  .ok (packageId, name)

/-- `INSERT INTO … VALUES ($1, $2) ON CONFLICT DO NOTHING`. -/
def insertPair (packageId : String) (t : Pairs) (name : String) : Except SqlError Pairs := do
  let row ← pairRow packageId name
  .ok ((t.insert? row).getD t)

/-- An insert for each name. -/
def insertPairs (packageId : String) (names : List String) (t : Pairs) : Except SqlError Pairs :=
  names.foldlM (insertPair packageId) t

/-- `DELETE FROM … WHERE package_id = $1`. -/
def deletePackage (packageId : String) (t : Pairs) : Pairs := t.delete fun row => row.1 = packageId

/-- **`sync_package`**, one transaction. -/
def Registry.syncPackage (r : Registry) (packageId : String) (tableNames actionNames : List String) :
    Except SqlError Registry := do
  let packages ← insertPairs packageId tableNames (deletePackage packageId r.packages)
  let actions ← insertPairs packageId actionNames (deletePackage packageId r.actions)
  .ok ⟨packages, actions⟩

/-- The order of `ORDER BY package_id, …`, which depends on the collation of the database. -/
structure Collation where
  orderBy : List (String × String) → List (String × String)
  orderBy_perm : ∀ l, (orderBy l).Perm l

/-- The order of the code points. -/
def Collation.bytewise : Collation where
  orderBy := sortBy toLex
  orderBy_perm := perm_sortBy toLex

/-- The steps of the packages service, on schemas of the type `S`. -/
inductive PackagesRequest (S : Type)
  | syncPackage (packageId : String) (tableNames actionNames : List String)
  | listTables
  | listCustomActions
  | writeSchema (schema : S)

/-- The reply to a request. -/
@[reducible] def PackagesReply {S : Type} : PackagesRequest S → Type
  | .syncPackage .. => Except SqlError Unit
  | .listTables => List (String × String)
  | .listCustomActions => List (String × String)
  | .writeSchema _ => Unit

/-- The interface of the packages service. -/
abbrev packages (S : Type) : Interface := ⟨PackagesRequest S, PackagesReply⟩

/-- A request, in a program. -/
def askPackages {S ε : Type} (q : PackagesRequest S) : Program (packages S) ε (PackagesReply q) :=
  .request (I := packages S) q

/-- The registry, and the schema in memory. -/
structure PackagesState (S : Type) where
  registry : Registry
  schema : S

/-- `list_tables`. -/
def Registry.listTables (C : Collation) (r : Registry) : List (String × String) :=
  C.orderBy r.packages.rows

/-- `list_custom_actions`. -/
def Registry.listCustomActions (C : Collation) (r : Registry) : List (String × String) :=
  C.orderBy r.actions.rows

/-- **The meaning of the requests.** -/
def handlePackages {S : Type} (C : Collation) : Handler (packages S) (PackagesState S)
  | .syncPackage packageId tableNames actionNames, s =>
    match s.registry.syncPackage packageId tableNames actionNames with
    | .ok registry => (.ok (), { s with registry := registry })
    | .error e => (.error e, s)
  | .listTables, s => (s.registry.listTables C, s)
  | .listCustomActions, s => (s.registry.listCustomActions C, s)
  | .writeSchema schema, s => ((), { s with schema := schema })

/-! ### Rows after a sync -/

variable {C : Collation} {r r' : Registry} {t t' : Pairs} {packageId name : String}
  {names tableNames actionNames : List String} {row : String × String}

theorem Registry.mem_listTables : row ∈ r.listTables C ↔ row ∈ r.packages :=
  (C.orderBy_perm _).mem_iff

theorem Registry.mem_listCustomActions : row ∈ r.listCustomActions C ↔ row ∈ r.actions :=
  (C.orderBy_perm _).mem_iff

theorem mem_insertPair (h : insertPair packageId t name = .ok t') :
    row ∈ t' ↔ row ∈ t ∨ pairRow packageId name = .ok row := by
  obtain ⟨new, hnew, h⟩ := bind_eq_ok.mp h
  obtain rfl := Except.ok.inj h
  rw [hnew, Except.ok.injEq]
  cases hinsert : t.insert? new with
  | none =>
    -- The row is there already.
    obtain ⟨old, hold, rfl⟩ := Table.insert?_eq_none.mp hinsert
    rw [Option.getD_none]
    constructor
    · exact .inl
    · rintro (hmem | rfl)
      · exact hmem
      · exact hold
  | some t' =>
    rw [Option.getD_some, Table.mem_insert? hinsert, or_comm, eq_comm]

/-- **The rows after the inserts.** -/
theorem mem_insertPairs (h : insertPairs packageId names t = .ok t') :
    row ∈ t' ↔ row ∈ t ∨ ∃ name ∈ names, pairRow packageId name = .ok row := by
  induction names generalizing t with
  | nil =>
    obtain rfl := Except.ok.inj h
    simp
  | cons name names ih =>
    rw [insertPairs, List.foldlM_cons] at h
    obtain ⟨t₁, hinsert, hrest⟩ := bind_eq_ok.mp h
    rw [ih hrest, mem_insertPair hinsert, List.exists_mem_cons_iff, or_assoc]

/-- Inserts succeed when there is a row for each name. -/
theorem insertPairs_isOk (h : ∀ name ∈ names, ∃ row, pairRow packageId name = .ok row) (t : Pairs) :
    ∃ t', insertPairs packageId names t = .ok t' := by
  induction names generalizing t with
  | nil => exact ⟨t, rfl⟩
  | cons name names ih =>
    obtain ⟨⟨row, hrow⟩, hrest⟩ := List.forall_mem_cons.mp h
    obtain ⟨t', ht'⟩ := ih hrest ((t.insert? row).getD t)
    refine ⟨t', ?_⟩
    rw [insertPairs, List.foldlM_cons]
    exact bind_eq_ok.mpr ⟨_, bind_eq_ok.mpr ⟨row, hrow, rfl⟩, ht'⟩

/-- Names that fit their columns are stored as they are. -/
theorem pairRow_of_le (hp : packageId.toList.length ≤ 255) (hn : name.toList.length ≤ 255) :
    pairRow packageId name = .ok (packageId, name) := by
  simp only [pairRow, varcharReq, varchar_of_le hp, varchar_of_le hn]
  rfl

theorem mem_deletePackage : row ∈ deletePackage packageId t ↔ row ∈ t ∧ row.1 ≠ packageId := by
  rw [deletePackage, Table.mem_delete, decide_eq_false_iff_not]

theorem Registry.syncPackage_eq_ok (h : r.syncPackage packageId tableNames actionNames = .ok r') :
    insertPairs packageId tableNames (deletePackage packageId r.packages) = .ok r'.packages ∧
      insertPairs packageId actionNames (deletePackage packageId r.actions) = .ok r'.actions := by
  obtain ⟨tables, htables, h⟩ := bind_eq_ok.mp h
  obtain ⟨actions, hactions, h⟩ := bind_eq_ok.mp h
  obtain rfl := Except.ok.inj h
  exact ⟨htables, hactions⟩

theorem Registry.syncPackage_isOk (htables : ∀ name ∈ tableNames, ∃ row, pairRow packageId name = .ok row)
    (hactions : ∀ name ∈ actionNames, ∃ row, pairRow packageId name = .ok row) (r : Registry) :
    ∃ r', r.syncPackage packageId tableNames actionNames = .ok r' := by
  obtain ⟨tables, ht⟩ := insertPairs_isOk htables (deletePackage packageId r.packages)
  obtain ⟨actions, ha⟩ := insertPairs_isOk hactions (deletePackage packageId r.actions)
  exact ⟨⟨tables, actions⟩, bind_eq_ok.mpr ⟨_, ht, bind_eq_ok.mpr ⟨_, ha, rfl⟩⟩⟩

/-- **The tables after a sync**: those of the other packages, and those of the call. -/
theorem Registry.mem_packages_syncPackage
    (h : r.syncPackage packageId tableNames actionNames = .ok r') :
    row ∈ r'.packages ↔ (row ∈ r.packages ∧ row.1 ≠ packageId) ∨
      ∃ name ∈ tableNames, pairRow packageId name = .ok row := by
  rw [mem_insertPairs (syncPackage_eq_ok h).1, mem_deletePackage]

/-- **The actions after a sync**: those of the other packages, and those of the call. -/
theorem Registry.mem_actions_syncPackage
    (h : r.syncPackage packageId tableNames actionNames = .ok r') :
    row ∈ r'.actions ↔ (row ∈ r.actions ∧ row.1 ≠ packageId) ∨
      ∃ name ∈ actionNames, pairRow packageId name = .ok row := by
  rw [mem_insertPairs (syncPackage_eq_ok h).2, mem_deletePackage]

end Authrs
