import Authrs.Base.Json

/-!
# Permission documents

The JSON format stored in the `permissions` table.

## Main definitions

* `Effect`, `Condition`, `PermissionStatement`, `PermissionDocument`: the document
* `PermissionDocument.toValue`: its JSON value
-/

namespace Authrs

/-- What a statement does to the requests it matches. -/
inductive Effect
  | allow
  | deny
  deriving DecidableEq

/-- A condition on the request context. -/
structure Condition where
  /-- e.g. "context.tls_version", "context.mfa_verified" -/
  attributeName : String
  /-- "eq" | "neq" | "gt" | "lt" -/
  operator : String
  value : Json

/-- One statement of a document. -/
structure PermissionStatement where
  sid : String
  effect : Effect
  /-- "role:<uid>", "user:<uuid>" or "*" once the document is stored. -/
  principals : List String
  actions : List String
  resources : List String
  conditions : List Condition

/-- A permission document. -/
structure PermissionDocument where
  version : String
  statements : List PermissionStatement

/-- `#[serde(rename_all = "lowercase")]`. -/
def Effect.toValue : Effect → Json
  | .allow => .string "allow"
  | .deny => .string "deny"

/-- `serde_json::to_value`. -/
def Condition.toValue (c : Condition) : Json :=
  .object [("attribute", .string c.attributeName), ("operator", .string c.operator),
    ("value", c.value)]

/-- `serde_json::to_value`. -/
def PermissionStatement.toValue (s : PermissionStatement) : Json :=
  .object [("actions", .array (s.actions.map .string)),
    ("conditions", .array (s.conditions.map Condition.toValue)),
    ("effect", s.effect.toValue),
    ("principals", .array (s.principals.map .string)),
    ("resources", .array (s.resources.map .string)),
    ("sid", .string s.sid)]

/-- `serde_json::to_value`. -/
def PermissionDocument.toValue (d : PermissionDocument) : Json :=
  .object [("statements", .array (d.statements.map PermissionStatement.toValue)),
    ("version", .string d.version)]

end Authrs
