import Mathlib.Data.List.Basic

/-!
# JSON values

`serde_json::Value`, and the part of its deserialization that the program uses: integers of a
fixed range, booleans, strings, lists, optional fields, and structures. Objects keep their keys in
order and each key once, as `serde_json::Map` does.

## Main definitions

* `Json`: JSON values; a number is an integer in the range of `u64` and `i64`, or a float
* `Json.get?`: a key of an object
* `Json.asInt`, `Json.asBool`, `Json.asString`, `Json.asList`: typed values
* `Json.fields`: the fields of a structure, from an object or from an array
-/

namespace Authrs

/-- A JSON value. A floating-point number is kept as its text: no field of the program has one. -/
inductive Json
  | null
  | bool (b : Bool)
  | int (n : Int)
  | float (text : String)
  | string (s : String)
  | array (items : List Json)
  | object (entries : List (String × Json))

namespace Json

/-- A key of an object. -/
def get? (j : Json) (key : String) : Option Json :=
  match j with
  | .object entries => (entries.find? fun e => e.1 = key).map Prod.snd
  | _ => none

/-- An integer from `lo` to `hi`. -/
def asInt (lo hi : Int) : Json → Option Int
  | .int n => if lo ≤ n ∧ n ≤ hi then some n else none
  | _ => none

/-- `u32`. -/
def asU32 (j : Json) : Option Nat := (j.asInt 0 4294967295).map Int.toNat

/-- `u64`. -/
def asU64 (j : Json) : Option Nat := (j.asInt 0 18446744073709551615).map Int.toNat

/-- `i32`. -/
def asI32 (j : Json) : Option Int := j.asInt (-2147483648) 2147483647

def asBool : Json → Option Bool
  | .bool b => some b
  | _ => none

def asString : Json → Option String
  | .string s => some s
  | _ => none

/-- A list whose items all are of the type. -/
def asList {α : Type} (item : Json → Option α) : Json → Option (List α)
  | .array items => items.mapM item
  | _ => none

/-- An optional field: absent and `null` are `None`, anything else has to be of the type. -/
def asOption {α : Type} (value : Json → Option α) : Json → Option (Option α)
  | .null => some none
  | j => (value j).map some

/-- The fields of a structure by name. An absent field of an object reads as `null`. An array
holds the fields in order, and may leave out those after the first `required` ones. -/
def fields (names : List String) (required : Nat) : Json → Option (List Json)
  | .object entries => some (names.map fun n => (get? (.object entries) n).getD .null)
  | .array items =>
    if required ≤ items.length ∧ items.length ≤ names.length then
      some (items ++ List.replicate (names.length - items.length) .null)
    else none
  | _ => none

end Json

end Authrs
