import Authrs.Policy.Schema
import Authrs.Store.Packages

/-!
# The packages service

`PackagesService` replaces the tables and actions of a package in the registry, and then rebuilds the
schema from the whole registry. The actions that it lists for a resource are derived again from the
registered tables, and joined with the stored ones.

## Main definitions

* `SchemaParser`: the parser of Cedar
* `allActions`: the actions that `sync` stores
* `PackagesService.sync`, `PackagesService.rebuildSchema`: the programs
* `actionsForResource`, `PackagesService.getActionsForResource`: the actions of a resource

## Main results

* `mem_allActions`: the stored actions
* `exec_rebuildSchema`, `exec_sync`: the programs run alone
-/

namespace Authrs

open Interaction Relational Schema

/-- `parse_schema`: a schema, or the text of an error. -/
abbrev SchemaParser (S : Type) : Type := String → Except String S

/-- A program of the packages service. -/
abbrev PackagesProgram (S α : Type) : Type := Program (packages S) AppError α

variable {S : Type} (U : CaseTable) (parseSchema : SchemaParser S) (C : Collation)

/-- The actions of a package: CRUD and extensible-fields names of its tables, and custom ones. -/
def allActions (tables extensibleTables customActions : List String) : List String :=
  distinctBy id (tables.flatMap (crudActionNames U) ++
    extensibleTables.flatMap (extensibleActionNames U) ++ customActions)

namespace PackagesService

/-- Reload the schema from the registry. -/
def rebuildSchema : PackagesProgram S Unit := do
  let packageTables ← askPackages .listTables
  let customActions ← askPackages .listCustomActions
  match parseSchema (buildSchemaStr U packageTables customActions) with
  | .ok schema => askPackages (.writeSchema schema)
  | .error e => .throw (.internal ("Cedar schema error: " ++ e))

/-- **Sync a package**: replace its rows, then rebuild the schema. -/
def sync (packageId : String) (tables extensibleTables customActions : List String) :
    PackagesProgram S Unit := do
  let actionNames := allActions U tables extensibleTables customActions
  match ← askPackages (.syncPackage packageId tables actionNames) with
  | .ok () => rebuildSchema U parseSchema
  | .error e => .throw (.ofSqlError e)

end PackagesService

/-! ### The actions of a resource -/

/-- The package and the table of a resource path: the last of each. -/
def parseResourceScope (resource : String) : Option String × Option String :=
  (splitChar resource '/').foldl (fun scope segment =>
    match dropStart "package:" segment with
    | some p => (some p, scope.2)
    | none =>
      match dropStart "table:" segment with
      | some t => (scope.1, some t)
      | none => scope) (none, none)

/-- A path below the service, or without one. -/
def underService (servicePrefix path : String) : String :=
  if servicePrefix.isEmpty then path else servicePrefix ++ "/" ++ path

/-- The actions of a table, each with the path of the table. -/
def tableActions (servicePrefix : String) (stored : List (String × String))
    (row : String × String) : List (String × String) :=
  let tableResource := underService servicePrefix ("package:" ++ row.1 ++ "/table:" ++ row.2)
  let crud := (crudActionNames U row.2).map fun action => (action, tableResource)
  -- Extensible iff the derived extensible actions are in the registry.
  let extActions := extensibleActionNames U row.2
  if extActions.any fun a => stored.contains (row.1, a) then
    crud ++ extActions.map fun action => (action, tableResource)
  else crud

/-- Whether a table is in the scope of a resource. -/
def tableInScope (scope : Option String × Option String) (row : String × String) : Bool :=
  match scope with
  | (some p, some t) => row.1 = p && row.2 = t
  | (some p, none) => row.1 = p
  | (none, _) => true

/-- Whether a stored action is in the scope of a resource. -/
def actionInScope (scope : Option String × Option String) (row : String × String) : Bool :=
  match scope.1 with
  | some p => row.1 = p
  | none => true

/-- The service prefix of a resource path. -/
def servicePrefix (resource : String) : String :=
  ((splitChar resource '/').find? fun s => (dropStart "service:" s).isSome).getD ""

/-- **The actions of a resource**, each with the most precise resource for it, from the listed tables
and actions. -/
def actionsForResource (resource : String) (allTables allCustom : List (String × String)) :
    List (String × String) :=
  let last := (splitChar resource '/').getLast?
  if last.any fun s => (dropStart "query:" s).isSome then
    QUERY_ACTIONS.map fun a => (a, resource)
  else if last.any fun s => (dropStart "view:" s).isSome then
    VIEW_ACTIONS.map fun a => (a, resource)
  else
    let scope := parseResourceScope resource
    let service := servicePrefix resource
    let derived := (allTables.filter (tableInScope scope)).flatMap (tableActions U service allCustom)
    let custom := (allCustom.filter (actionInScope scope)).map fun row =>
      (row.2, underService service ("package:" ++ row.1))
    distinctBy Prod.fst (derived ++ custom)

/-- `get_actions_for_resource`. -/
def PackagesService.getActionsForResource (resource : String) :
    PackagesProgram S (List (String × String)) := do
  let allTables ← askPackages .listTables
  let allCustom ← askPackages .listCustomActions
  .pure (actionsForResource U resource allTables allCustom)

/-! ### Run alone -/

variable {U parseSchema C} {s : PackagesState S} {packageId a : String}
  {tables extensibleTables customActions : List String}

theorem mem_allActions : a ∈ allActions U tables extensibleTables customActions ↔
    (∃ t ∈ tables, a ∈ crudActionNames U t) ∨
      (∃ t ∈ extensibleTables, a ∈ extensibleActionNames U t) ∨ a ∈ customActions := by
  simp only [allActions, mem_distinctBy_id, List.mem_append, List.mem_flatMap, or_assoc]

/-- The schema text of a registry. -/
def Registry.schemaText (U : CaseTable) (C : Collation) (r : Registry) : String :=
  buildSchemaStr U (r.listTables C) (r.listCustomActions C)

theorem exec_rebuildSchema :
    (PackagesService.rebuildSchema U parseSchema).exec (handlePackages C) s =
      match parseSchema (s.registry.schemaText U C) with
      | .ok schema => (.ok (), { s with schema := schema })
      | .error e => (.error (.internal ("Cedar schema error: " ++ e)), s) := by
  have hlisted : (PackagesService.rebuildSchema U parseSchema).exec (handlePackages C) s =
      Program.exec (handlePackages C) (match parseSchema (s.registry.schemaText U C) with
        | .ok schema => askPackages (.writeSchema schema)
        | .error e => .throw (.internal ("Cedar schema error: " ++ e))) s := rfl
  rw [hlisted]
  cases parseSchema (s.registry.schemaText U C) <;> rfl

theorem exec_sync :
    (PackagesService.sync U parseSchema packageId tables extensibleTables customActions).exec
        (handlePackages C) s =
      match s.registry.syncPackage packageId tables
          (allActions U tables extensibleTables customActions) with
      | .ok registry =>
        (PackagesService.rebuildSchema U parseSchema).exec (handlePackages C)
          { s with registry := registry }
      | .error e => (.error (.ofSqlError e), s) := by
  rw [PackagesService.sync, Program.bind_eq, askPackages, Program.exec_bind, Program.exec_request]
  simp only [handlePackages]
  cases s.registry.syncPackage packageId tables
    (allActions U tables extensibleTables customActions) <;> rfl

end Authrs
