import Authrs.Base.UuidText
import Authrs.Cedar.Crate

/-!
# An instance of the crate

The functions of the crate for the fragment, computed: identities that are read from the text they
are displayed as, policies of the fragment, and validation against a list of declarations. It
satisfies the laws.

## Main definitions

* `Declarations`: what a schema declares
* `reference`: the instance

## Main results

* `reference_readsUids`, `reference_readsPolicies`, `reference_readsContexts`,
  `reference_validates`, `reference_authorizes`: the laws
-/

namespace Cedar

open Authrs (Json splitOnceList splitOnceList_eq_some hexValue readHex readHex_append_singleton)

/-! ### Texts -/

/-- The tables of a deployment where nothing but ASCII prints. -/
def asciiTables : EscapeTables where
  printable c := 32 ≤ c.toNat && c.toNat ≤ 126
  graphemeExtend _ := false
  ascii c h h' := by simp [h, h']

/-- The character that an escape sequence stands for, and what follows it. -/
def readEscape : List Char → Option (Char × List Char)
  | [] => none
  | 'u' :: cs => do
    let (opening, cs) ← splitOnceList '\x7b' cs
    let (digits, rest) ← splitOnceList '\x7d' cs
    let n ← readHex digits
    if opening.isEmpty then pure (Char.ofNat n, rest) else none
  | letter :: cs => (escapeLetters.find? (·.2 = letter)).map fun e => (e.1, cs)

/-- What a text denotes, and what follows its closing quote; `n` bounds its length. -/
def readQuoted : (n : Nat) → List Char → Option (List Char × List Char)
  | 0, _ => none
  | _ + 1, [] => none
  | n + 1, c :: cs =>
    if c = '"' then some ([], cs)
    else if c = '\\' then
      (readEscape cs).bind fun e => (readQuoted n e.2).map fun p => (e.1 :: p.1, p.2)
    else (readQuoted n cs).map fun p => (c :: p.1, p.2)

/-- The digits of a number are read back. -/
theorem readHex_toDigits (n : Nat) : readHex (Nat.toDigits 16 n) = some n := by
  induction n using Nat.strong_induction_on with
  | _ n ih =>
    have hvalue : ∀ d, d < 16 → hexValue d.digitChar = some d := by
      have all : ∀ d : Fin 16, hexValue d.val.digitChar = some d.val := by decide
      exact fun d hd => all ⟨d, hd⟩
    by_cases hn : n < 16
    · rw [Nat.toDigits_of_lt_base hn]
      simp [readHex, hvalue n hn]
    · rw [Nat.toDigits_of_base_le (by decide) (Nat.le_of_not_lt hn), readHex_append_singleton,
        ih _ (by omega), Option.bind_some, hvalue _ (Nat.mod_lt _ (by decide)), Option.map_some,
        Nat.div_add_mod]

theorem brace_notMem_toDigits (n : Nat) : '\x7d' ∉ Nat.toDigits 16 n := by
  induction n using Nat.strong_induction_on with
  | _ n ih =>
    have hne : ∀ d, d < 16 → '\x7d' ≠ d.digitChar := by
      have all : ∀ d : Fin 16, '\x7d' ≠ d.val.digitChar := by decide
      exact fun d hd => all ⟨d, hd⟩
    by_cases hn : n < 16
    · rw [Nat.toDigits_of_lt_base hn, List.mem_singleton]
      exact hne n hn
    · rw [Nat.toDigits_of_base_le (by decide) (Nat.le_of_not_lt hn), List.mem_append,
        List.mem_singleton, not_or]
      exact ⟨ih _ (by omega), hne _ (Nat.mod_lt _ (by decide))⟩

theorem readEscape_letter {c letter : Char} (h : escapeLetters.lookup c = some letter)
    (rest : List Char) : readEscape (letter :: rest) = some (c, rest) := by
  have all : ∀ e ∈ escapeLetters, readEscape (e.2 :: rest) = some (e.1, rest) := by
    simp [escapeLetters, readEscape]
  obtain ⟨l, l', hl, -⟩ := List.lookup_eq_some_iff.mp h
  exact all (c, letter) (by simp [hl])

theorem readEscape_unicode (c : Char) (rest : List Char) :
    readEscape (escapeUnicode c ++ rest).tail = some (c, rest) := by
  have hopening : splitOnceList '\x7b' ('\x7b' :: (Nat.toDigits 16 c.toNat ++ '\x7d' :: rest)) =
      some ([], Nat.toDigits 16 c.toNat ++ '\x7d' :: rest) := rfl
  have hclosing : splitOnceList '\x7d' (Nat.toDigits 16 c.toNat ++ '\x7d' :: rest) =
      some (Nat.toDigits 16 c.toNat, rest) :=
    splitOnceList_eq_some.mpr ⟨rfl, brace_notMem_toDigits _⟩
  simp [escapeUnicode, readEscape, hopening, hclosing, readHex_toDigits]

/-- **A character is read from its escape sequence, or from itself.** -/
theorem readQuoted_escapeChar (U : EscapeTables) (first : Bool) (c : Char) (n : Nat)
    (cs : List Char) : readQuoted (n + 1) (escapeChar U first c ++ cs) =
      (readQuoted n cs).map fun p => (c :: p.1, p.2) := by
  have hunicode : readQuoted (n + 1) (escapeUnicode c ++ cs) =
      (readQuoted n cs).map fun p => (c :: p.1, p.2) := by
    have hread := readEscape_unicode c cs
    change (if '\\' = '"' then _ else if '\\' = '\\' then
      (readEscape (escapeUnicode c ++ cs).tail).bind _ else _) = _
    rw [if_neg (by decide), if_pos rfl, hread]
    rfl
  unfold escapeChar
  cases hletter : escapeLetters.lookup c with
  | some letter =>
    change (if '\\' = '"' then _ else if '\\' = '\\' then
      (readEscape (letter :: cs)).bind _ else _) = _
    rw [if_neg (by decide), if_pos rfl, readEscape_letter hletter]
    rfl
  | none =>
    simp only
    split
    · exact hunicode
    · split
      · have hquote : c ≠ '"' := by
          rintro rfl
          cases hletter
        have hbackslash : c ≠ '\\' := by
          rintro rfl
          cases hletter
        rw [List.singleton_append, readQuoted, if_neg hquote, if_neg hbackslash]
      · exact hunicode

theorem readQuoted_flatMap (U : EscapeTables) (v rest : List Char) {n : Nat} (hn : v.length < n) :
    readQuoted n (v.flatMap (escapeChar U false) ++ '"' :: rest) = some (v, rest) := by
  induction v generalizing n with
  | nil =>
    obtain ⟨n, rfl⟩ := Nat.exists_eq_succ_of_ne_zero (n := n) (by rw [List.length_nil] at hn; omega)
    rfl
  | cons c v ih =>
    obtain ⟨n, rfl⟩ := Nat.exists_eq_succ_of_ne_zero (n := n) (by omega)
    rw [List.flatMap_cons, List.append_assoc, readQuoted_escapeChar,
      ih (by rw [List.length_cons] at hn; omega)]
    rfl

/-- **A text is read from what it is displayed as.** -/
theorem readQuoted_escapeDebug (U : EscapeTables) (v rest : List Char) {n : Nat} (hn : v.length < n) :
    readQuoted n (escapeDebug U v ++ '"' :: rest) = some (v, rest) := by
  cases v with
  | nil => exact readQuoted_flatMap U [] rest hn
  | cons c v =>
    obtain ⟨n, rfl⟩ := Nat.exists_eq_succ_of_ne_zero (n := n) (by omega)
    rw [escapeDebug, List.append_assoc, readQuoted_escapeChar,
      readQuoted_flatMap U v rest (by rw [List.length_cons] at hn; omega)]
    rfl

theorem length_le_escapeDebug (U : EscapeTables) (v : List Char) :
    v.length ≤ (escapeDebug U v).length := by
  cases v with
  | nil => exact Nat.zero_le _
  | cons c v =>
    have hv := length_le_flatMap_escapeChar (U := U) v
    rw [escapeDebug, List.length_append, List.length_cons]
    rcases escapeChar_cases (U := U) true c with ⟨h, -⟩ | h
    · rw [h, List.length_singleton]
      omega
    · omega

/-- The identity a text denotes. -/
def readUid (s : String) : Option EntityUid :=
  (splitOnceList '"' s.toList).bind fun p =>
    match p.1.reverse, readQuoted p.2.length p.2 with
    | ':' :: ':' :: typeName, some (v, []) => some ⟨.ofList typeName.reverse, .ofList v⟩
    | _, _ => none

theorem splitOnceList_uidText {T : String} (hT : IsTypeName T) (id : String) :
    splitOnceList '"' (Crate.uidText T id).toList =
      some (T.toList ++ [':', ':'], id.toList ++ ['"']) := by
  rw [splitOnceList_eq_some]
  constructor
  · simp [Crate.uidText, String.toList_append]
  · rw [List.mem_append, not_or]
    exact ⟨hT.quote_notMem, by decide⟩

theorem readUid_uidText {T : String} (hT : IsTypeName T) (id : String) :
    readUid (Crate.uidText T id) =
      match readQuoted (id.toList ++ ['"']).length (id.toList ++ ['"']) with
      | some (v, []) => some ⟨T, .ofList v⟩
      | _ => none := by
  rw [readUid, splitOnceList_uidText hT, Option.bind_some]
  have hreverse : (T.toList ++ [':', ':']).reverse = ':' :: ':' :: T.toList.reverse := by simp
  simp only [hreverse]
  rcases readQuoted (id.toList ++ ['"']).length (id.toList ++ ['"']) with _ | ⟨v, _ | ⟨c, rest⟩⟩
  · rfl
  · simp
  · rfl

/-! ### Declarations -/

structure ActionDecl where
  uid : EntityUid
  principalTypes : List String
  resourceTypes : List String

/-- The declaration of an entity type; its attributes are texts. -/
structure EntityDecl where
  typeName : String
  parentTypes : List String
  attrs : List String

/-- What a schema declares. Actions declare no context. -/
structure Declarations where
  entities : List EntityDecl
  actions : List ActionDecl

def EntityDecl.accepts (d : EntityDecl) (e : Entity) : Bool :=
  d.typeName = e.uid.typeName && d.attrs = e.attrs.map Prod.fst &&
    (e.attrs.all fun a => a.2 matches .prim (.string _)) &&
    e.parents.all fun p => d.parentTypes.contains p.typeName

def Declarations.appliesTo (d : Declarations) (action : EntityUid)
    (principalType resourceType : String) : Bool :=
  d.actions.any fun a =>
    a.uid = action && a.principalTypes.contains principalType &&
      a.resourceTypes.contains resourceType

def Declarations.acceptsEntity (d : Declarations) (e : Entity) : Bool :=
  d.entities.any fun decl => decl.accepts e

/-! ### The instance -/

def readField (f : String × Json) : Option (String × Value) :=
  (Prim.ofJson f.2).map fun p => (f.1, .prim p)

def readContext : Json → Option Context
  | .object entries => entries.mapM readField
  | _ => none

/-- The functions of the crate on the fragment. -/
def reference : Crate where
  Schema := Declarations
  tables := asciiTables
  uidFromStr s := (readUid s).filter fun u =>
    Crate.uidText u.typeName (.ofList (escapeDebug asciiTables u.eid.toList)) = s
  policyFromJson id j :=
    match Policy.ofJson id j with
    | some p => .ok p
    | none => .error "error deserializing a policy/template from JSON"
  idTaken id := "duplicate template or policy id `" ++ id ++ "`"
  contextFromJson := readContext
  entityNew uid attrs parents := some ⟨uid, attrs, parents⟩
  entitiesFromEntities es d :=
    if es.all d.acceptsEntity && decide (es.map Entity.uid).Nodup then some es else none
  requestNew p a r ctx d :=
    if d.appliesTo a p.typeName r.typeName && ctx.isEmpty then some ⟨p, a, r, ctx⟩ else none
  isAuthorized req ps es := ps.decision req es
  appliesTo := Declarations.appliesTo
  acceptsContext _ _ ctx := ctx.isEmpty
  acceptsEntity := Declarations.acceptsEntity

theorem reference_readsUids : reference.ReadsUids := by
  intro T text u hT
  change (readUid (Crate.uidText T text)).filter (fun u =>
    Crate.uidText u.typeName (reference.eidText u.eid) = Crate.uidText T text) = some u ↔ _
  rw [Option.filter_eq_some_iff, decide_eq_true_eq]
  constructor
  · rintro ⟨hread, htext⟩
    have htype : u.typeName = T := by
      rw [readUid_uidText hT] at hread
      split at hread
      · cases hread
        rfl
      · cases hread
    rw [htype] at htext
    exact ⟨htype, (Crate.uidText_injective htext).symm⟩
  · rintro ⟨rfl, rfl⟩
    refine ⟨?_, rfl⟩
    rw [readUid_uidText hT]
    have hchars : (reference.eidText u.eid).toList = escapeDebug asciiTables u.eid.toList := by
      rw [Crate.eidText, String.toList_ofList]
      rfl
    have hlength := length_le_escapeDebug asciiTables u.eid.toList
    rw [hchars, readQuoted_escapeDebug asciiTables _ [] (by simp; omega)]
    simp

theorem reference_readsPolicies : reference.ReadsPolicies where
  policy_of_json id p hp := by
    change (match Policy.ofJson id p.toJson with
      | some p => Except.ok p
      | none => .error _) = _
    rw [Policy.ofJson_toJson hp]
  json_of_policy id j p h := by
    change (match Policy.ofJson id j with
      | some p => Except.ok p
      | none => .error _) = _ at h
    split at h
    · next hread => exact Policy.conditionsJson_of_ofJson hread
    · cases h

theorem mapM_readField {fields : List (String × Prim)}
    (h : ∀ f ∈ fields, (Expr.lit f.2).Valid) :
    (fields.map fun f => (f.1, f.2.toJson)).mapM readField =
      some (fields.map fun f => (f.1, .prim f.2)) := by
  induction fields with
  | nil => rfl
  | cons f fields ih =>
    rw [List.forall_mem_cons] at h
    have hfield : readField (f.1, f.2.toJson) = some (f.1, .prim f.2) := by
      rw [readField, Prim.ofJson_toJson h.1]
      rfl
    rw [List.map_cons, List.mapM_cons, hfield, ih h.2]
    rfl

theorem reference_readsContexts : reference.ReadsContexts where
  context_of_json _ _ h := mapM_readField h

theorem reference_validates : reference.Validates where
  entity_of_strings _ _ _ := rfl
  entities_of_list es s hes hnodup _ := by
    change (if es.all s.acceptsEntity && decide (es.map Entity.uid).Nodup then some es else none) = _
    rw [if_pos]
    rw [Bool.and_eq_true, List.all_eq_true, decide_eq_true_eq]
    exact ⟨hes, hnodup⟩
  request_of_parts _ _ _ _ _ := rfl

theorem reference_authorizes : reference.Authorizes := fun _ _ _ => rfl

end Cedar
