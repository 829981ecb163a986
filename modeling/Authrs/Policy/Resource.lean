import Authrs.Base.Text
import Authrs.Cedar.Json

/-!
# Resource paths

The helpers that the compiler and the engine share. A path is a list of `prefix:id` segments,
separated by `/`. The entity type comes from the prefix of the last segment, and the entity id is
the path with the prefixes stripped. A resource with a `*` is a pattern.

## Main definitions

* `segmentEntityType`, `allowsParent`, `entityType`, `entityId`, `isWildcard`, `likePattern`:
  their namesakes in the source
* `likeElems`: the pattern that `likePattern` writes

## Main results

* `entityId_splitChar_inj`: equal ids have equal stripped segments
* `matchPattern_likeElems`: a wildcard resource matches what it covers
-/

namespace Authrs

namespace Resource

open Cedar (PatternElem matchPattern matchPattern_nil matchPattern_wildcard
  matchPattern_literal)

/-- The entity type of one segment. Unknown prefixes map to `Service`. -/
def segmentEntityType (segment : String) : String :=
  match (splitOnce segment ':').map Prod.fst with
  | some "package" => "Package"
  | some "table" => "Table"
  | some "column" => "Column"
  | some "query" => "Query"
  | some "view" => "View"
  | _ => "Service"

/-- Whether the schema lets an entity of type `child` be a member of one of type `parent`. -/
def allowsParent (child parent : String) : Bool :=
  [("Package", "Service"), ("Table", "Package"), ("Column", "Table"), ("Query", "Package"),
    ("View", "Package")].contains (child, parent)

/-- The entity type of a path. -/
def entityType (resource : String) : String :=
  segmentEntityType ((splitChar resource '/').getLast?.getD resource)

/-- A segment without its prefix. -/
def stripPrefix (segment : String) : String :=
  ((splitOnce segment ':').map Prod.snd).getD segment

/-- The entity id of a path: its segments with their prefixes stripped. -/
def entityId (segments : List String) : String := joinStr (segments.map stripPrefix) '/'

def isWildcard (resource : String) : Bool := resource.toList.contains '*'

/-- The `like` pattern of a wildcard resource: each `*` becomes a wildcard, and the text between
two of them a literal. -/
def likePattern (resource : String) : List Json :=
  (splitChar resource '*').zipIdx.flatMap fun (literal, i) =>
    (if i > 0 then [.string "Wildcard"] else []) ++
      (if literal ≠ "" then [.object [("Literal", .string literal)]] else [])

/-! ### Types and ids -/

/-- The types of resources. -/
def types : List String := ["Service", "Package", "Table", "Column", "Query", "View"]

theorem segmentEntityType_mem (segment : String) : segmentEntityType segment ∈ types := by
  unfold segmentEntityType
  split <;> decide

theorem entityType_mem (resource : String) : entityType resource ∈ types :=
  segmentEntityType_mem _

theorem slash_notMem_stripPrefix {segment : String} (h : '/' ∉ segment.toList) :
    '/' ∉ (stripPrefix segment).toList := by
  unfold stripPrefix
  cases hsplit : splitOnce segment ':' with
  | none => exact h
  | some p =>
    obtain ⟨a, b⟩ := p
    rw [(splitOnce_eq_some.mp hsplit).1, List.mem_append, not_or, List.mem_cons, not_or] at h
    exact h.2.2

/-- **Paths have one id exactly when their stripped segments are equal.** -/
theorem entityId_splitChar_inj (p r : String) :
    entityId (splitChar p '/') = entityId (splitChar r '/') ↔
      (splitChar p '/').map stripPrefix = (splitChar r '/').map stripPrefix := by
  have hstripped : ∀ s : String, ∀ x ∈ (splitChar s '/').map stripPrefix, '/' ∉ x.toList := by
    intro s x hx
    obtain ⟨segment, hsegment, rfl⟩ := List.mem_map.mp hx
    exact slash_notMem_stripPrefix (notMem_splitChar segment hsegment)
  apply joinStr_inj
  · simpa using splitChar_ne_nil p '/'
  · simpa using splitChar_ne_nil r '/'
  · exact hstripped p
  · exact hstripped r

/-! ### Patterns -/

/-- The literal between two wildcards; an empty one is left out. -/
def literalElem (literal : List Char) : List PatternElem :=
  if literal = [] then [] else [.literal (.ofList literal)]

/-- The pattern of the pieces between the stars of a resource. -/
def pieceElems : List (List Char) → List PatternElem
  | [] => []
  | literal :: pieces =>
    literalElem literal ++ pieces.flatMap fun literal => .wildcard :: literalElem literal

/-- The pattern that `likePattern` writes. -/
def likeElems (resource : String) : List PatternElem := pieceElems (resource.toList.splitOn '*')

theorem map_toJson_literalElem (literal : List Char) :
    (literalElem literal).map PatternElem.toJson =
      if String.ofList literal ≠ "" then [.object [("Literal", .string (.ofList literal))]]
      else [] := by
  cases literal with
  | nil => rfl
  | cons c cs => simp [literalElem, PatternElem.toJson]

/-- **The compiler writes the pattern of the resource.** -/
theorem likePattern_eq (resource : String) :
    likePattern resource = (likeElems resource).map PatternElem.toJson := by
  have hlater : ∀ (pieces : List (List Char)) (k : Nat),
      ((pieces.map String.ofList).zipIdx (k + 1)).flatMap (fun (literal, i) =>
        (if i > 0 then [Json.string "Wildcard"] else []) ++
          (if literal ≠ "" then [.object [("Literal", .string literal)]] else [])) =
      (pieces.flatMap fun literal => .wildcard :: literalElem literal).map PatternElem.toJson := by
    intro pieces
    induction pieces with
    | nil => exact fun k => rfl
    | cons piece pieces ih =>
      intro k
      rw [List.map_cons, List.zipIdx_cons, List.flatMap_cons, List.flatMap_cons, List.map_append,
        ih (k + 1), List.map_cons, map_toJson_literalElem]
      rfl
  rw [likePattern, splitChar, likeElems]
  cases resource.toList.splitOn '*' with
  | nil => rfl
  | cons piece pieces =>
    rw [List.map_cons, List.zipIdx_cons, List.flatMap_cons, pieceElems, List.map_append,
      map_toJson_literalElem]
    exact congrArg _ (hlater pieces 0)

/-- The path is the resource with a run of characters for each of its stars. -/
inductive Covers : List Char → List Char → Prop
  | nil : Covers [] []
  | char {c : Char} {r path : List Char} (hc : c ≠ '*') (h : Covers r path) :
      Covers (c :: r) (c :: path)
  | star {r path : List Char} (run : List Char) (h : Covers r path) :
      Covers ('*' :: r) (run ++ path)

theorem matchPattern_literalElem {c : Char} {literal path : List Char} {ps : List PatternElem} :
    matchPattern (literalElem (c :: literal) ++ ps) path = true ↔
      ∃ rest, path = c :: rest ∧ matchPattern (literalElem literal ++ ps) rest = true := by
  have hcons : literalElem (c :: literal) = [.literal (.ofList (c :: literal))] := by
    simp [literalElem]
  rw [hcons, List.singleton_append, matchPattern_literal, String.toList_ofList]
  cases literal with
  | nil => simp [literalElem]
  | cons d ds =>
    have hcons : literalElem (d :: ds) = [.literal (.ofList (d :: ds))] := by simp [literalElem]
    rw [hcons, List.singleton_append]
    constructor
    · rintro ⟨rest, rfl, hmatch⟩
      refine ⟨_, rfl, matchPattern_literal.mpr ⟨rest, ?_, hmatch⟩⟩
      rw [String.toList_ofList]
      rfl
    · rintro ⟨_, rfl, hmatch⟩
      obtain ⟨rest, rfl, hrest⟩ := matchPattern_literal.mp hmatch
      rw [String.toList_ofList]
      exact ⟨rest, rfl, hrest⟩

/-- **The pattern of a resource matches the paths it covers.** -/
theorem matchPattern_pieceElems {r path : List Char} :
    matchPattern (pieceElems (r.splitOn '*')) path = true ↔ Covers r path := by
  induction r generalizing path with
  | nil =>
    rw [List.splitOn_nil]
    change matchPattern [] path = true ↔ _
    rw [matchPattern_nil]
    constructor
    · rintro rfl
      exact .nil
    · rintro ⟨⟩
      rfl
  | cons c r ih =>
    rw [List.splitOn_cons_eq_if_modifyHead]
    cases hpieces : r.splitOn '*' with
    | nil => exact absurd hpieces (List.splitOn_ne_nil '*' r)
    | cons piece pieces =>
      rw [hpieces] at ih
      by_cases hc : c = '*'
      · subst hc
        rw [if_pos (beq_self_eq_true _)]
        change matchPattern (.wildcard :: pieceElems (piece :: pieces)) path = true ↔ _
        rw [matchPattern_wildcard]
        constructor
        · rintro ⟨run, rest, rfl, hmatch⟩
          exact .star run (ih.mp hmatch)
        · intro h
          cases h with
          | char hc _ => exact absurd rfl hc
          | star run h => exact ⟨run, _, rfl, ih.mpr h⟩
      · rw [if_neg (by simpa using hc), List.modifyHead_cons, pieceElems, matchPattern_literalElem]
        constructor
        · rintro ⟨rest, rfl, hmatch⟩
          exact .char hc (ih.mp hmatch)
        · intro h
          cases h with
          | char _ h => exact ⟨_, rfl, ih.mpr h⟩
          | star run h => exact absurd rfl hc

theorem matchPattern_likeElems {r path : String} :
    matchPattern (likeElems r) path.toList = true ↔ Covers r.toList path.toList :=
  matchPattern_pieceElems

end Resource

end Authrs
