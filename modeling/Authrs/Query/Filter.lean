import Authrs.Query.Rsql
import Authrs.SqlText.Lexer

/-!
# From filters to SQL

`src/query/filter.rs`: a filter tree and a sort list become the text of a `WHERE` and an
`ORDER BY` fragment with the parameters to bind, under the allowlist of fields of an endpoint; and
the texts that the list endpoints make of the fragments.

## Main definitions

* `FieldType`, `FieldSpec`, `lookup`: the allowlist
* `opValidForType`: which operators a field admits
* `Builder`, `buildLeaf`, `buildNode`: the traversal that writes the text and collects parameters
* `build`, `BuiltQuery`: the fragments
* `listWhere`, `listQuery`: the clauses of a list endpoint
-/

namespace Authrs.Query

open SqlText (ColumnRef TypeName CompareOp)

/-! ### The allowlist -/

inductive FieldType
  | text
  | int
  | float
  | bool
  | uuid
  | date
  | timestamp
  | time
  deriving DecidableEq, Repr

/-- `Debug for FieldType`. -/
def FieldType.debug : FieldType → String
  | text => "Text"
  | int => "Int"
  | float => "Float"
  | bool => "Bool"
  | uuid => "Uuid"
  | date => "Date"
  | timestamp => "Timestamp"
  | time => "Time"

/-- `FieldType::cast`. -/
def FieldType.cast : FieldType → Option TypeName
  | text => none
  | int => some .bigint
  | float => some .doublePrecision
  | bool => some .boolean
  | uuid => some .uuid
  | date => some .date
  | timestamp => some .timestamptz
  | time => some .time

/-- A field of an endpoint; its column is a trusted, already qualified name. -/
structure FieldSpec where
  apiName : String
  column : ColumnRef
  ty : FieldType
  sensitive : Bool

abbrev FieldMap : Type := List FieldSpec

def lookup (fields : FieldMap) (apiName : String) : Except AppError FieldSpec :=
  match fields.find? fun f => f.apiName = apiName with
  | none => .error (.validation ("unknown filter field '" ++ apiName ++ "'"))
  | some spec =>
    if spec.sensitive then
      .error (.validation ("field '" ++ apiName ++ "' is not filterable"))
    else .ok spec

/-- `op_valid_for_type`. -/
def opValidForType (op : RsqlOp) (ty : FieldType) : Bool :=
  match ty with
  | .text =>
    match op with
    | .eq | .neq | .inList | .out | .like | .ilike | .contains | .starts | .ends | .null _ => true
    | _ => false
  | .int | .float | .date | .timestamp | .time =>
    match op with
    | .eq | .neq | .gt | .ge | .lt | .le | .between | .inList | .out | .null _ => true
    | _ => false
  | .bool =>
    match op with
    | .eq | .neq | .null _ => true
    | _ => false
  | .uuid =>
    match op with
    | .eq | .neq | .inList | .out | .null _ => true
    | _ => false

/-! ### The builder -/

/-- The parameters so far, and the next placeholder. -/
structure Builder where
  params : List String
  next : Nat

/-- `Builder::ph`. -/
def Builder.ph (b : Builder) (value : String) (cast : Option TypeName) : String × Builder :=
  let b' : Builder := ⟨b.params ++ [value], b.next + 1⟩
  match cast with
  | some t => ("$" ++ toString b.next ++ "::" ++ t.text, b')
  | none => ("$" ++ toString b.next, b')

/-- The placeholders of several values. -/
def Builder.phs (b : Builder) (cast : Option TypeName) : List String → List String × Builder
  | [] => ([], b)
  | v :: vs =>
    let r := b.ph v cast
    let rs := r.2.phs cast vs
    (r.1 :: rs.1, rs.2)

/-- `cmp` of `build_leaf`. -/
def RsqlOp.cmp : RsqlOp → Option CompareOp
  | eq => some .eq
  | neq => some .neq
  | gt => some .gt
  | ge => some .ge
  | lt => some .lt
  | le => some .le
  | _ => none

/-- The LIKE-family operators compare as text, and so never carry a cast. -/
def RsqlOp.isLike : RsqlOp → Bool
  | like | ilike | contains | starts | ends => true
  | _ => false

/-- `values.first().cloned().unwrap_or_default()`. -/
def firstValue (values : List String) : String := values.head?.getD ""

section Build

variable (fields : FieldMap)

/-- `Builder::build_leaf`. -/
def buildLeaf (b : Builder) (field : String) (op : RsqlOp) (values : List String) :
    Except AppError (String × Builder) := do
  let spec ← lookup fields field
  if !opValidForType op spec.ty then
    .error (.validation ("operator " ++ op.display ++ " is not valid for " ++ spec.ty.debug ++
      " field '" ++ field ++ "'"))
  else
    let col := spec.column.text
    let cast := if op.isLike then none else spec.ty.cast
    match op with
    | .null isNull => .ok (if isNull then col ++ " IS NULL" else col ++ " IS NOT NULL", b)
    | .eq | .neq | .gt | .ge | .lt | .le =>
      let r := b.ph (firstValue values) cast
      .ok (col ++ " " ++ op.cmp.elim "" (·.text) ++ " " ++ r.1, r.2)
    | .like =>
      let r := b.ph (firstValue values) none
      .ok (col ++ " LIKE " ++ r.1, r.2)
    | .ilike =>
      let r := b.ph (firstValue values) none
      .ok (col ++ " ILIKE " ++ r.1, r.2)
    | .contains =>
      let r := b.ph ("%" ++ firstValue values ++ "%") none
      .ok (col ++ " ILIKE " ++ r.1, r.2)
    | .starts =>
      let r := b.ph (firstValue values ++ "%") none
      .ok (col ++ " ILIKE " ++ r.1, r.2)
    | .ends =>
      let r := b.ph ("%" ++ firstValue values) none
      .ok (col ++ " ILIKE " ++ r.1, r.2)
    | .inList | .out =>
      if values = [] then
        .error (.validation (op.display ++ " requires at least one value for field '" ++ field ++
          "'"))
      else
        let r := b.phs cast values
        let kw := if op = .inList then "IN" else "NOT IN"
        .ok (col ++ " " ++ kw ++ " (" ++ SqlText.join ", " r.1 ++ ")", r.2)
    | .between =>
      match values with
      | [v, v'] =>
        let r := b.ph v cast
        let r' := r.2.ph v' cast
        .ok (col ++ " BETWEEN " ++ r.1 ++ " AND " ++ r'.1, r'.2)
      | _ =>
        .error (.validation ("=between= requires exactly 2 values for field '" ++ field ++
          "', got " ++ toString values.length))

mutual

/-- `Builder::build_node`. -/
def buildNode (b : Builder) : FilterNode → Except AppError (String × Builder)
  | .and children => do
    let r ← buildNodes b children
    .ok ("(" ++ SqlText.join " AND " r.1 ++ ")", r.2)
  | .or children => do
    let r ← buildNodes b children
    .ok ("(" ++ SqlText.join " OR " r.1 ++ ")", r.2)
  | .leaf field op values => buildLeaf fields b field op values

/-- The texts of the children, up to the first failure. -/
def buildNodes (b : Builder) : List FilterNode → Except AppError (List String × Builder)
  | [] => .ok ([], b)
  | c :: cs => do
    let r ← buildNode b c
    let rs ← buildNodes r.2 cs
    .ok (r.1 :: rs.1, rs.2)

end

/-- The fragments, and the parameters to bind from `$start_index` on. -/
structure BuiltQuery where
  whereSql : String
  orderSql : String
  params : List String

/-- One part of the `ORDER BY` fragment. -/
def orderPart (s : SortSpec) : Except AppError String :=
  match fields.find? fun f => f.apiName = s.field with
  | none => .error (.validation ("sort field '" ++ s.field ++ "' does not exist"))
  | some spec =>
    if spec.sensitive then
      .error (.validation ("field '" ++ s.field ++ "' is not sortable"))
    else .ok (spec.column.text ++ " " ++ (if s.desc then "DESC" else "ASC"))

/-- The `ORDER BY` fragment, with its leading blank. -/
def buildOrder (sort : List SortSpec) : Except AppError String := do
  let parts ← sort.mapM (orderPart fields)
  .ok (if parts = [] then "" else " ORDER BY " ++ SqlText.join ", " parts)

/-- The `WHERE` fragment and its parameters. -/
def buildWhere (filter : Option FilterNode) (startIndex : Nat) :
    Except AppError (String × Builder) :=
  match filter with
  | some node => buildNode fields ⟨[], startIndex⟩ node
  | none => .ok ("", ⟨[], startIndex⟩)

/-- **`build`.** -/
def build (filter : Option FilterNode) (sort : List SortSpec) (startIndex : Nat) :
    Except AppError BuiltQuery := do
  let r ← buildWhere fields filter startIndex
  let orderSql ← buildOrder fields sort
  .ok ⟨r.1, orderSql, r.2.params⟩

end Build

/-! ### The list endpoints -/

/-- `USER_FILTER_FIELDS`. -/
def userFilterFields : FieldMap :=
  [⟨"id", ⟨"u.id", by decide +kernel⟩, .uuid, false⟩,
    ⟨"identityId", ⟨"u.identity_id", by decide +kernel⟩, .uuid, false⟩,
    ⟨"firstName", ⟨"i.first_name", by decide +kernel⟩, .text, false⟩,
    ⟨"lastName", ⟨"i.last_name", by decide +kernel⟩, .text, false⟩,
    ⟨"email", ⟨"i.email", by decide +kernel⟩, .text, false⟩,
    ⟨"username", ⟨"u.username", by decide +kernel⟩, .text, false⟩,
    ⟨"mobile", ⟨"i.mobile", by decide +kernel⟩, .text, false⟩,
    ⟨"countryCode", ⟨"i.country_code", by decide +kernel⟩, .text, false⟩,
    ⟨"status", ⟨"u.status", by decide +kernel⟩, .text, false⟩,
    ⟨"mfaEnabled", ⟨"i.mfa_enabled", by decide +kernel⟩, .bool, false⟩,
    ⟨"accessValidUntil", ⟨"u.access_valid_until", by decide +kernel⟩, .timestamp, false⟩,
    ⟨"createdAt", ⟨"u.created_at", by decide +kernel⟩, .timestamp, false⟩,
    ⟨"updatedAt", ⟨"u.updated_at", by decide +kernel⟩, .timestamp, false⟩,
    ⟨"passwordHash", ⟨"i.password_hash", by decide +kernel⟩, .text, true⟩,
    ⟨"mfaSecret", ⟨"i.mfa_secret", by decide +kernel⟩, .text, true⟩]

/-- `PERMISSION_FILTER_FIELDS`. -/
def permissionFilterFields : FieldMap :=
  [⟨"id", ⟨"id", by decide +kernel⟩, .uuid, false⟩,
    ⟨"name", ⟨"name", by decide +kernel⟩, .text, false⟩,
    ⟨"description", ⟨"description", by decide +kernel⟩, .text, false⟩]

/-- `GROUP_FILTER_FIELDS`. -/
def groupFilterFields : FieldMap :=
  [⟨"id", ⟨"id", by decide +kernel⟩, .uuid, false⟩,
    ⟨"name", ⟨"name", by decide +kernel⟩, .text, false⟩,
    ⟨"uid", ⟨"uid", by decide +kernel⟩, .text, false⟩,
    ⟨"description", ⟨"description", by decide +kernel⟩, .text, false⟩]

/-- `ROLE_FILTER_FIELDS`. -/
def roleFilterFields : FieldMap :=
  [⟨"id", ⟨"id", by decide +kernel⟩, .uuid, false⟩,
    ⟨"name", ⟨"name", by decide +kernel⟩, .text, false⟩,
    ⟨"uid", ⟨"uid", by decide +kernel⟩, .text, false⟩,
    ⟨"parentRoleId", ⟨"parent_role_id", by decide +kernel⟩, .uuid, false⟩]

/-- The `WHERE` clause of a list endpoint: its own conjunct, and the filter. -/
def listWhere (own : String) (built : BuiltQuery) : String :=
  if built.whereSql = "" then own else own ++ " AND " ++ built.whereSql

/-- What a list endpoint asks the database: its conjuncts `own` and the filter from `$start` on,
in the order of the sort list or in its own order. -/
def listQuery (own defaultOrder : String) (fields : FieldMap) (start : Nat)
    (filter : Option FilterNode) (sort : List SortSpec) : Except AppError BuiltQuery := do
  let built ← build fields filter sort start
  .ok ⟨listWhere own built, if built.orderSql = "" then defaultOrder else built.orderSql,
    built.params⟩

/-- The conjuncts of the list endpoints. -/
def usersWhere (includeArchived : Bool) : String :=
  "u.tenant_id = $1" ++ (if includeArchived then "" else " AND u.status != 'archived'")

def usersByGroupWhere : String := "u.tenant_id = $1 AND ug.group_id = $2"

def groupsWhere : String := "tenant_id = $1"

def rolesWhere : String := "tenant_id = $1"

def permissionsWhere : String := "tenant_id = $1 AND document IS NOT NULL"

/-- `UsersRepo::list`. -/
def UsersRepo.list (includeArchived : Bool) :
    Option FilterNode → List SortSpec → Except AppError BuiltQuery :=
  listQuery (usersWhere includeArchived) " ORDER BY u.created_at DESC" userFilterFields 2

/-- `UsersRepo::list_by_group`. -/
def UsersRepo.listByGroup : Option FilterNode → List SortSpec → Except AppError BuiltQuery :=
  listQuery usersByGroupWhere " ORDER BY ug.created_at ASC" userFilterFields 3

/-- `GroupsRepo::list`. -/
def GroupsRepo.list : Option FilterNode → List SortSpec → Except AppError BuiltQuery :=
  listQuery groupsWhere " ORDER BY name" groupFilterFields 2

/-- `RolesRepo::list`. -/
def RolesRepo.list : Option FilterNode → List SortSpec → Except AppError BuiltQuery :=
  listQuery rolesWhere " ORDER BY name" roleFilterFields 2

/-- `PermissionsRepo::list`. -/
def PermissionsRepo.list : Option FilterNode → List SortSpec → Except AppError BuiltQuery :=
  listQuery permissionsWhere " ORDER BY name" permissionFilterFields 2

end Authrs.Query
