import Authrs.Cedar.Reference
import Authrs.Policy.Engine
import Authrs.Policy.Schema
import Authrs.Services.Packages

/-!
# What the schema declares

What the parser of the crate makes of the schema text: users are in roles, a resource has its path as
an attribute and the parents that `allows_parent` lists. No action declares a context, as long as the
names of tables and actions are plain: the text takes them as they are, and a name with quotes can
declare one, or a type. The parser is a parameter, and a reader of the fragment satisfies the laws.

## Main definitions

* `declaredParents`: the parents that some lines declare for an entity type
* `AuthrsSchema`: what a schema with the entity lines declares
* `ReadsEntityLines`: the parser reads the entity lines off a text
* `DeclaresNoContext`, `ReadsPlainActions`: the actions of plain names have the empty context
* `referenceSchema`: a reader of the text, and `textEntities`, the entity types in it

## Main results

* `declaredParents_of_allowsParent`: the entity lines allow the parents that `allows_parent` does
* `reference_readsEntityLines`, `reference_readsPlainActions`: the reader satisfies the laws
-/

namespace Authrs

open Cedar (Crate EntityUid Entity Context Declarations EntityDecl ActionDecl)
open Schema

/-- The types in which the lines declare the members of a type to be. -/
def declaredParents (lines : List String) (T : String) : List String :=
  let start := ("  entity " ++ T ++ " in [").toList
  lines.filterMap fun line =>
    if start.isPrefixOf line.toList then
      some (String.ofList ((line.toList.drop start.length).takeWhile (· ≠ ']')))
    else none

variable (C : Crate)

/-- **What a schema with the entity lines declares**: a user has no attributes and a resource has its
path, and their parents are of the types that the lines list. -/
structure AuthrsSchema (schema : C.Schema) : Prop where
  user : ∀ (id : String) (parents : List EntityUid),
    (∀ p ∈ parents, ∃ P ∈ declaredParents entityLines "User", p.typeName = "AuthRS::" ++ P) →
      C.acceptsEntity schema ⟨⟨"AuthRS::User", id⟩, [], parents⟩ = true
  resource : ∀ T ∈ Resource.types, ∀ (id path : String) (parents : List EntityUid),
    (∀ p ∈ parents, ∃ P ∈ declaredParents entityLines T, p.typeName = "AuthRS::" ++ P) →
      C.acceptsEntity schema
        ⟨⟨"AuthRS::" ++ T, id⟩, [("path", .prim (.string path))], parents⟩ = true

/-- The parser reads the declarations of the entity lines off a text. Nothing else in the text of a
registry declares an entity type, unless the name of an action ends its quotes and does. -/
def ReadsEntityLines (parseSchema : SchemaParser C.Schema) (text : String) : Prop :=
  ∀ schema, parseSchema text = .ok schema → AuthrsSchema C schema

/-- The actions of the schema accept the empty context only. -/
def DeclaresNoContext (schema : C.Schema) : Prop :=
  ∀ (a : EntityUid) (principalType resourceType : String) (ctx : Context),
    C.appliesTo schema a principalType resourceType = true →
      (C.acceptsContext schema a ctx = true ↔ ctx = [])

/-- The parser finds no context in the text, where the names of tables and actions are plain. -/
def ReadsPlainActions (U : CaseTable) (parseSchema : SchemaParser C.Schema) : Prop :=
  ∀ (packageTables customActions : List (String × String)) (schema : C.Schema),
    (∀ x ∈ packageTables, PlainName x.2) → (∀ x ∈ customActions, PlainName x.2) →
      parseSchema (buildSchemaStr U packageTables customActions) = .ok schema →
        DeclaresNoContext C schema

/-! ### The entity types of the text -/

/-- The entity lines are lines of the text, whatever the names of the actions are. -/
theorem entityLine_mem (U : CaseTable) (packageTables customActions : List (String × String))
    {line : String} (h : line ∈ entityLines) :
    line ∈ splitChar (buildSchemaStr U packageTables customActions) '\n' := by
  have hlines : ∀ line ∈ entityLines, line ∈ splitChar line '\n' := by decide +kernel
  rw [buildSchemaStr, splitChar_joinStr_parts (by simp)]
  exact List.mem_flatMap.mpr
    ⟨line, List.mem_append_left _ (List.mem_append_left _ h), hlines line h⟩

/-- What the entity lines declare, the text declares. -/
theorem declaredParents_subset (U : CaseTable) (packageTables customActions : List (String × String))
    (T : String) : declaredParents entityLines T ⊆
      declaredParents (splitChar (buildSchemaStr U packageTables customActions) '\n') T := by
  intro P hP
  obtain ⟨line, hline, h⟩ := List.mem_filterMap.mp hP
  exact List.mem_filterMap.mpr ⟨line, entityLine_mem U packageTables customActions hline, h⟩

/-- **The entity lines allow the parents that `allows_parent` does.** -/
theorem declaredParents_of_allowsParent {T P : String} (h : Resource.allowsParent T P = true) :
    P ∈ declaredParents entityLines T := by
  unfold Resource.allowsParent at h
  rw [List.contains_iff_mem] at h
  have hlines : ∀ c ∈ [("Package", "Service"), ("Table", "Package"), ("Column", "Table"),
      ("Query", "Package"), ("View", "Package")],
        (declaredParents entityLines c.1).contains c.2 = true := by
    decide +kernel
  exact List.contains_iff_mem.mp (hlines (T, P) h)

theorem role_mem_declaredParents : "Role" ∈ declaredParents entityLines "User" := by
  have hcontains : (declaredParents entityLines "User").contains "Role" = true := by decide +kernel
  exact List.contains_iff_mem.mp hcontains

/-! ### A reader of the text -/

/-- The entity types that the text declares. -/
def textEntities (text : String) : List EntityDecl :=
  let parents := fun T => (declaredParents (splitChar text '\n') T).map ("AuthRS::" ++ ·)
  ⟨"AuthRS::User", parents "User", []⟩ :: ⟨"AuthRS::Role", [], []⟩ ::
    Resource.types.map fun T => ⟨"AuthRS::" ++ T, parents T, ["path"]⟩

/-- The resource types of an action line: those that are named after its last bracket. -/
def lineTypes (line : String) : List String :=
  let named := (line.toList.reverse.takeWhile (· ≠ '[')).reverse
  (Resource.types.filter fun T => named.tails.any T.toList.isPrefixOf).map ("AuthRS::" ++ ·)

/-- The declaration that a line makes. -/
def lineDecl (line : String) : Option ActionDecl :=
  (declaredAction line).map fun a => ⟨⟨"AuthRS::Action", a⟩, ["AuthRS::User"], lineTypes line⟩

theorem lineDecl_actionLine {a clause : String} (ha : '"' ∉ a.toList) :
    lineDecl (actionLine a clause) =
      some ⟨⟨"AuthRS::Action", a⟩, ["AuthRS::User"], lineTypes (actionLine a clause)⟩ := by
  rw [lineDecl, declaredAction_actionLine ha, Option.map_some]

/-- The declarations of a schema text. -/
def referenceSchema (text : String) : Except String Declarations :=
  .ok ⟨textEntities text, (splitChar text '\n').filterMap lineDecl⟩

theorem reference_readsEntityLines (U : CaseTable) (packageTables customActions : List (String × String)) :
    ReadsEntityLines Cedar.reference referenceSchema
      (buildSchemaStr U packageTables customActions) := by
  intro schema h
  obtain rfl := Except.ok.inj h
  have hparents : ∀ {T : String} {parents : List EntityUid},
      (∀ p ∈ parents, ∃ P ∈ declaredParents entityLines T, p.typeName = "AuthRS::" ++ P) →
        ∀ p ∈ parents, p.typeName ∈ (declaredParents
          (splitChar (buildSchemaStr U packageTables customActions) '\n') T).map ("AuthRS::" ++ ·) := by
    intro T parents h p hp
    obtain ⟨P, hP, hname⟩ := h p hp
    rw [hname]
    exact List.mem_map_of_mem (declaredParents_subset U packageTables customActions T hP)
  constructor
  · intro id parents h
    refine List.any_eq_true.mpr ⟨_, List.mem_cons_self, ?_⟩
    simpa [EntityDecl.accepts] using hparents h
  · intro T hT id path parents h
    refine List.any_eq_true.mpr
      ⟨_, List.mem_cons_of_mem _ (List.mem_cons_of_mem _ (List.mem_map_of_mem hT)), ?_⟩
    simpa [EntityDecl.accepts] using hparents h

theorem reference_readsPlainActions (U : CaseTable) :
    ReadsPlainActions Cedar.reference U referenceSchema :=
  fun _ _ _ _ _ _ _ _ _ _ _ => List.isEmpty_iff

/-- An action applies to what one of the declarations of it names. -/
theorem appliesTo_of_mem {d : Declarations} {a : EntityUid} {types : List String} {T : String}
    (h : (⟨a, ["AuthRS::User"], types⟩ : ActionDecl) ∈ d.actions) (hT : T ∈ types) :
    d.appliesTo a "AuthRS::User" T = true :=
  List.any_eq_true.mpr ⟨_, h, by simpa using hT⟩

/-- **The reader applies an action to the types of its line.** -/
theorem referenceSchema_appliesTo {U : CaseTable} {packageTables customActions : List (String × String)}
    {schema : Declarations} (hT : ∀ x ∈ packageTables, PlainName x.2)
    (hA : ∀ x ∈ customActions, PlainName x.2)
    (hschema : referenceSchema (buildSchemaStr U packageTables customActions) = .ok schema)
    {a clause T : String} (h : Declares U packageTables customActions a clause)
    (htypes : T ∈ lineTypes (actionLine a clause)) :
    Cedar.reference.appliesTo schema ⟨"AuthRS::Action", a⟩ "AuthRS::User" T = true := by
  have hline : actionLine a clause ∈ splitChar (buildSchemaStr U packageTables customActions) '\n' := by
    rw [splitChar_buildSchemaStr hT hA]
    exact List.mem_append_left _ (List.mem_append_right _ (mem_actionLines.mpr ⟨a, clause, h, rfl⟩))
  have hdecl : (⟨⟨"AuthRS::Action", a⟩, ["AuthRS::User"], lineTypes (actionLine a clause)⟩ :
      ActionDecl) ∈ (splitChar (buildSchemaStr U packageTables customActions) '\n').filterMap lineDecl :=
    List.mem_filterMap.mpr ⟨_, hline, lineDecl_actionLine (h.plain hT hA).1⟩
  have hactions : schema.actions =
      (splitChar (buildSchemaStr U packageTables customActions) '\n').filterMap lineDecl := by
    rw [← Except.ok.inj hschema]
  rw [← hactions] at hdecl
  exact appliesTo_of_mem hdecl htypes

end Authrs
