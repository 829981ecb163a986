import Authrs.Base.Error
import Authrs.Base.Text

/-!
# RSQL filters and sort lists

The parser of `src/query/rsql.rs`: a filter is a tree of `field<op>value` leaves joined by `;`
(AND) and `,` (OR), grouped with `()`; a sort list is a comma-separated list of fields, a leading
`-` for descending order. Every tree the parser returns is well formed: it says so in its type.

## Main definitions

* `RsqlOp`, `FilterNode`, `SortSpec`: operators, filter trees and sort lists
* `FilterNode.WellFormed`: groups have at least two members, and leaves as many values as their
  operator asks for
* `parseOr`, `parseAnd`, `parseAtom`, `parseLeaf`: the parser
* `parseRsql`, `parseSort`: `parse_rsql` and `parse_sort`

## Main results

* `FilterNode.induction`: induction over filter trees
* `parseRsql_wellFormed`: the trees that `parse_rsql` returns are well formed
-/

namespace Authrs.Query

/-! ### Filter trees -/

inductive RsqlOp
  | eq
  | neq
  | gt
  | ge
  | lt
  | le
  | inList
  | out
  | like
  | ilike
  | contains
  | starts
  | ends
  | between
  /-- `=null=true` is `IS NULL`, `=null=false` is `IS NOT NULL`. -/
  | null (isNull : Bool)
  deriving DecidableEq, Repr

/-- `RsqlOp::display`. -/
def RsqlOp.display : RsqlOp → String
  | eq => "=="
  | neq => "!="
  | gt => "=gt="
  | ge => "=ge="
  | lt => "=lt="
  | le => "=le="
  | inList => "=in="
  | out => "=out="
  | like => "=like="
  | ilike => "=ilike="
  | contains => "=contains="
  | starts => "=starts="
  | ends => "=ends="
  | between => "=between="
  | null _ => "=null="

inductive FilterNode
  | and (children : List FilterNode)
  | or (children : List FilterNode)
  | leaf (field : String) (op : RsqlOp) (values : List String)

structure SortSpec where
  field : String
  desc : Bool
  deriving DecidableEq, Repr

/-- Induction over filter trees. -/
@[elab_as_elim, induction_eliminator]
theorem FilterNode.induction {motive : FilterNode → Prop}
    (and : ∀ cs, (∀ c ∈ cs, motive c) → motive (.and cs))
    (or : ∀ cs, (∀ c ∈ cs, motive c) → motive (.or cs))
    (leaf : ∀ field op values, motive (.leaf field op values)) :
    ∀ node, motive node
  | .and cs => and cs fun c _ => FilterNode.induction and or leaf c
  | .or cs => or cs fun c _ => FilterNode.induction and or leaf c
  | .leaf field op values => leaf field op values

/-- How many values the parser gives an operator: none for `=null=`, one or more in a list, and
one otherwise. -/
def RsqlOp.Admits : RsqlOp → Nat → Prop
  | null _, n => n = 0
  | inList, n => 0 < n
  | out, n => 0 < n
  | between, n => 0 < n
  | _, n => n = 1

/-- Groups have at least two members, and leaves as many values as their operator admits. -/
inductive FilterNode.WellFormed : FilterNode → Prop
  | and {cs : List FilterNode} (hlen : 2 ≤ cs.length) (h : ∀ c ∈ cs, WellFormed c) :
    WellFormed (.and cs)
  | or {cs : List FilterNode} (hlen : 2 ≤ cs.length) (h : ∀ c ∈ cs, WellFormed c) :
    WellFormed (.or cs)
  | leaf {field : String} {op : RsqlOp} {values : List String} (h : op.Admits values.length) :
    WellFormed (.leaf field op values)

/-! ### Leaves -/

/-- The parser: the characters from its position on, and the position. -/
structure Parser where
  rest : List Char
  pos : Nat

namespace Parser

def peek (p : Parser) : Option Char := p.rest.head?

/-- The parser after its next `n` characters. -/
def skip (p : Parser) (n : Nat) : Parser := ⟨p.rest.drop n, p.pos + n⟩

/-- The characters up to the first one that fails the test, and the parser there. -/
def takeWhile (p : Parser) (f : Char → Bool) : String × Parser :=
  (String.ofList (p.rest.takeWhile f), p.skip (p.rest.takeWhile f).length)

/-- The parser has moved on from `p`. -/
def Past (p q : Parser) : Prop := q.rest.length < p.rest.length

/-- The parser has not moved back. -/
def From (p q : Parser) : Prop := q.rest.length ≤ p.rest.length

theorem From.refl (p : Parser) : From p p := Nat.le_refl _

theorem From.trans {p q r : Parser} (h : From p q) (h' : From q r) : From p r := Nat.le_trans h' h

theorem Past.trans_from {p q r : Parser} (h : Past p q) (h' : From q r) : Past p r :=
  Nat.lt_of_le_of_lt h' h

theorem From.trans_past {p q r : Parser} (h : From p q) (h' : Past q r) : Past p r :=
  Nat.lt_of_lt_of_le h' h

theorem Past.from {p q : Parser} (h : Past p q) : From p q := Nat.le_of_lt h

theorem from_skip (p : Parser) (n : Nat) : From p (p.skip n) := by
  change (p.rest.drop n).length ≤ p.rest.length
  rw [List.length_drop]
  omega

theorem past_skip {p : Parser} {n : Nat} (hp : p.rest ≠ []) (hn : 0 < n) : Past p (p.skip n) := by
  have hlen : 0 < p.rest.length := List.length_pos_iff.mpr hp
  change (p.rest.drop n).length < p.rest.length
  rw [List.length_drop]
  omega

theorem rest_ne_nil {p : Parser} {c : Char} (h : p.peek = some c) : p.rest ≠ [] := by
  intro hnil
  rw [peek, hnil] at h
  cases h

end Parser

/-- `parse_selector`. -/
def parseSelector (p : Parser) : Except String (String × Parser) :=
  let r := p.takeWhile fun c => c.isAlphanum || c == '_'
  if r.2.pos = p.pos then .error ("expected field name at position " ++ toString r.2.pos)
  else .ok r

/-- The operators that are written `=name=`. -/
def namedOp : String → Option RsqlOp
  | "gt" => some .gt
  | "ge" => some .ge
  | "lt" => some .lt
  | "le" => some .le
  | "in" => some .inList
  | "out" => some .out
  | "like" => some .like
  | "ilike" => some .ilike
  | "contains" => some .contains
  | "starts" => some .starts
  | "ends" => some .ends
  | "between" => some .between
  | "null" => some (.null true)
  | _ => none

/-- The next two characters, if there are two. -/
def Parser.two (p : Parser) : String :=
  if 2 ≤ p.rest.length then String.ofList (p.rest.take 2) else ""

/-- `parse_operator`: the operator and its name. -/
def parseOperator (p : Parser) : Except String ((RsqlOp × String) × Parser) :=
  if p.two = "==" then .ok ((.eq, "=="), p.skip 2)
  else if p.two = "!=" then .ok ((.neq, "!="), p.skip 2)
  else if p.peek = some '=' then
    let r := (p.skip 1).takeWhile (· != '=')
    if r.2.peek ≠ some '=' then
      .error ("unterminated operator at position " ++ toString r.2.pos)
    else
      let q := r.2.skip 1
      match namedOp r.1 with
      | some op => .ok ((op, r.1), q)
      | none => .error ("unknown operator '=" ++ r.1 ++ "=' at position " ++ toString q.pos)
  else .error ("expected operator at position " ++ toString p.pos)

/-- `parse_value`: a quoted value ends at the next quote, an unquoted one before `,;()`. -/
def parseValue (p : Parser) : Except String (String × Parser) :=
  if p.peek = some '"' then
    let r := (p.skip 1).takeWhile (· != '"')
    if r.2.peek = some '"' then .ok (r.1, r.2.skip 1)
    else .error ("unterminated quoted value at position " ++ toString r.2.pos)
  else .ok (p.takeWhile fun c => !",;()".toList.contains c)

theorem parseSelector_past {p q : Parser} {field : String}
    (h : parseSelector p = .ok (field, q)) : p.Past q := by
  unfold parseSelector at h
  dsimp only at h
  split at h
  · cases h
  · next hpos =>
    cases h
    change p.pos + _ ≠ p.pos at hpos
    have hne : p.rest ≠ [] := by
      intro hnil
      rw [hnil] at hpos
      exact hpos rfl
    exact Parser.past_skip hne (by omega)

theorem namedOp_null {name : String} {op : RsqlOp} (h : namedOp name = some op)
    (hname : name ≠ "null") (b : Bool) : op ≠ .null b := by
  rintro rfl
  unfold namedOp at h
  split at h
  all_goals first | exact hname rfl | cases h

/-- Only the operator named `null` is an `=null=`. -/
theorem parseOperator_ok {p q : Parser} {op : RsqlOp} {name : String}
    (h : parseOperator p = .ok ((op, name), q)) :
    (name ≠ "null" → ∀ b, op ≠ .null b) ∧ p.From q := by
  unfold parseOperator at h
  split at h
  · cases h
    exact ⟨by simp, p.from_skip 2⟩
  split at h
  · cases h
    exact ⟨by simp, p.from_skip 2⟩
  split at h
  · dsimp only at h
    split at h
    · cases h
    · split at h
      · next hop =>
        cases h
        refine ⟨namedOp_null hop, ?_⟩
        exact ((p.from_skip 1).trans (Parser.from_skip _ _)).trans (Parser.from_skip _ _)
      · cases h
  · cases h

theorem parseValue_from {p q : Parser} {v : String} (h : parseValue p = .ok (v, q)) :
    p.From q := by
  unfold parseValue at h
  dsimp only at h
  split at h
  · split at h
    · cases h
      exact ((p.from_skip 1).trans (Parser.from_skip _ _)).trans (Parser.from_skip _ _)
    · cases h
  · cases h
    exact p.from_skip _

/-- The values of a list, after its opening parenthesis: the loop of `parse_arguments`. -/
def parseValues (p : Parser) : Except String (List String × Parser) :=
  match _hv : parseValue p with
  | .error e => .error e
  | .ok (v, q) =>
    match _hq : q.peek with
    | some ',' =>
      match parseValues (q.skip 1) with
      | .error e => .error e
      | .ok (vs, r) => .ok (v :: vs, r)
    | some ')' => .ok ([v], q.skip 1)
    | _ => .error ("expected ',' or ')' at position " ++ toString q.pos)
termination_by p.rest.length
decreasing_by
  exact (parseValue_from _hv).trans_past (Parser.past_skip (Parser.rest_ne_nil _hq) Nat.one_pos)

/-- `parse_arguments`. -/
def parseArguments (op : RsqlOp) (p : Parser) : Except String (List String × Parser) :=
  if op = .inList ∨ op = .out ∨ op = .between then
    if p.peek ≠ some '(' then
      .error ("expected '(' after operator at position " ++ toString p.pos)
    else parseValues (p.skip 1)
  else
    match parseValue p with
    | .error e => .error e
    | .ok (v, q) => .ok ([v], q)

theorem parseValues_ok {p q : Parser} {vs : List String} (h : parseValues p = .ok (vs, q)) :
    0 < vs.length ∧ p.From q := by
  fun_induction parseValues p generalizing vs with
  | case1 p e hv => cases h
  | case2 p v p' hv hc e hrec ih => cases h
  | case3 p v p' hv hc vs' r hrec ih =>
    cases h
    obtain ⟨-, hfrom⟩ := ih hrec
    refine ⟨Nat.succ_pos _, ?_⟩
    exact ((parseValue_from hv).trans (Parser.from_skip _ _)).trans hfrom
  | case4 p v p' hv hc =>
    cases h
    exact ⟨Nat.one_pos, (parseValue_from hv).trans (Parser.from_skip _ _)⟩
  | case5 p v p' hv => cases h

theorem parseArguments_ok {op : RsqlOp} {p q : Parser} {vs : List String}
    (hop : ∀ b, op ≠ .null b) (h : parseArguments op p = .ok (vs, q)) :
    op.Admits vs.length ∧ p.From q := by
  unfold parseArguments at h
  split at h
  · next hlist =>
    split at h
    · cases h
    · obtain ⟨hlen, hfrom⟩ := parseValues_ok h
      refine ⟨?_, (p.from_skip 1).trans hfrom⟩
      rcases hlist with rfl | rfl | rfl <;> exact hlen
  · next hlist =>
    split at h
    · cases h
    · next v r hv =>
      cases h
      refine ⟨?_, parseValue_from hv⟩
      cases op with
      | null b => exact absurd rfl (hop b)
      | inList => exact absurd (.inl rfl) hlist
      | out => exact absurd (.inr (.inl rfl)) hlist
      | between => exact absurd (.inr (.inr rfl)) hlist
      | _ => rfl

/-! ### Trees -/

/-- A parsed tree, and the parser after it. -/
structure Parsed (p : Parser) where
  node : FilterNode
  next : Parser
  wellFormed : node.WellFormed
  past : p.Past next

/-- The further members of a group, and the parser after them. -/
structure Parts (p : Parser) where
  nodes : List FilterNode
  next : Parser
  wellFormed : ∀ c ∈ nodes, c.WellFormed
  ahead : p.From next

section Parse

variable (toLowercase : String → String)

/-- `parse_leaf`: the value of `=null=` becomes part of the operator. -/
def parseLeaf (p : Parser) : Except String (Parsed p) :=
  match hf : parseSelector p with
  | .error e => .error e
  | .ok (field, q) =>
    match ho : parseOperator q with
    | .error e => .error e
    | .ok ((opRaw, opName), r) =>
      have hr : p.Past r := (parseSelector_past hf).trans_from (parseOperator_ok ho).2
      if hname : opName = "null" then
        match hv : parseValue r with
        | .error e => .error e
        | .ok (raw, s) =>
          have hs : p.Past s := hr.trans_from (parseValue_from hv)
          if toLowercase raw = "true" then
            .ok ⟨.leaf field (.null true) [], s, .leaf rfl, hs⟩
          else if toLowercase raw = "false" then
            .ok ⟨.leaf field (.null false) [], s, .leaf rfl, hs⟩
          else .error ("=null= expects true or false, got '" ++ toLowercase raw ++ "'")
      else
        match hv : parseArguments opRaw r with
        | .error e => .error e
        | .ok (values, s) =>
          have hs := parseArguments_ok ((parseOperator_ok ho).1 hname) hv
          .ok ⟨.leaf field opRaw values, s, .leaf hs.1, hr.trans_from hs.2⟩

mutual

/-- `parse_or`, which is `parse_expression`. -/
def parseOr (p : Parser) : Except String (Parsed p) :=
  match parseAnd p with
  | .error e => .error e
  | .ok first =>
    match parseOrRest first.next with
    | .error e => .error e
    | .ok ⟨[], q, _, hq⟩ => .ok ⟨first.node, q, first.wellFormed, first.past.trans_from hq⟩
    | .ok ⟨b :: bs, q, hbs, hq⟩ =>
      .ok ⟨.or (first.node :: b :: bs), q,
        .or (by simp) (by
          intro c hc
          rcases List.mem_cons.mp hc with rfl | hc
          · exact first.wellFormed
          · exact hbs c hc),
        first.past.trans_from hq⟩
termination_by 4 * p.rest.length + 2
decreasing_by
  · omega
  · have := first.past
    unfold Parser.Past at this
    omega

/-- The loop of `parse_or`. -/
def parseOrRest (p : Parser) : Except String (Parts p) :=
  if hc : p.peek = some ',' then
    match parseAnd (p.skip 1) with
    | .error e => .error e
    | .ok r =>
      match parseOrRest r.next with
      | .error e => .error e
      | .ok rs =>
        .ok ⟨r.node :: rs.nodes, rs.next, by
          intro c hc
          rcases List.mem_cons.mp hc with rfl | hc
          · exact r.wellFormed
          · exact rs.wellFormed c hc,
          ((p.from_skip 1).trans r.past.from).trans rs.ahead⟩
  else .ok ⟨[], p, by simp, .refl p⟩
termination_by 4 * p.rest.length
decreasing_by
  · have := Parser.past_skip (Parser.rest_ne_nil hc) Nat.one_pos
    unfold Parser.Past at this
    omega
  · have := (p.from_skip 1).trans_past r.past
    unfold Parser.Past at this
    omega

/-- `parse_and`. -/
def parseAnd (p : Parser) : Except String (Parsed p) :=
  match parseAtom p with
  | .error e => .error e
  | .ok first =>
    match parseAndRest first.next with
    | .error e => .error e
    | .ok ⟨[], q, _, hq⟩ => .ok ⟨first.node, q, first.wellFormed, first.past.trans_from hq⟩
    | .ok ⟨b :: bs, q, hbs, hq⟩ =>
      .ok ⟨.and (first.node :: b :: bs), q,
        .and (by simp) (by
          intro c hc
          rcases List.mem_cons.mp hc with rfl | hc
          · exact first.wellFormed
          · exact hbs c hc),
        first.past.trans_from hq⟩
termination_by 4 * p.rest.length + 1
decreasing_by
  · omega
  · have := first.past
    unfold Parser.Past at this
    omega

/-- The loop of `parse_and`. -/
def parseAndRest (p : Parser) : Except String (Parts p) :=
  if hc : p.peek = some ';' then
    match parseAtom (p.skip 1) with
    | .error e => .error e
    | .ok r =>
      match parseAndRest r.next with
      | .error e => .error e
      | .ok rs =>
        .ok ⟨r.node :: rs.nodes, rs.next, by
          intro c hc
          rcases List.mem_cons.mp hc with rfl | hc
          · exact r.wellFormed
          · exact rs.wellFormed c hc,
          ((p.from_skip 1).trans r.past.from).trans rs.ahead⟩
  else .ok ⟨[], p, by simp, .refl p⟩
termination_by 4 * p.rest.length
decreasing_by
  · have := Parser.past_skip (Parser.rest_ne_nil hc) Nat.one_pos
    unfold Parser.Past at this
    omega
  · have := (p.from_skip 1).trans_past r.past
    unfold Parser.Past at this
    omega

/-- `parse_atom`. -/
def parseAtom (p : Parser) : Except String (Parsed p) :=
  if _hc : p.peek = some '(' then
    match parseOr (p.skip 1) with
    | .error e => .error e
    | .ok r =>
      if r.next.peek = some ')' then
        .ok ⟨r.node, r.next.skip 1, r.wellFormed,
          (p.from_skip 1).trans_past (r.past.trans_from (Parser.from_skip _ 1))⟩
      else .error ("expected ')' at position " ++ toString r.next.pos)
  else parseLeaf toLowercase p
termination_by 4 * p.rest.length
decreasing_by
  have := Parser.past_skip (Parser.rest_ne_nil _hc) Nat.one_pos
  unfold Parser.Past at this
  omega

end

/-- **`parse_rsql`.** -/
def parseRsql (input : String) : Except AppError FilterNode :=
  let trimmed := trim input
  if trimmed = "" then .error (.validation "empty RSQL expression")
  else
    match parseOr toLowercase ⟨trimmed.toList, 0⟩ with
    | .error e => .error (.validation ("RSQL parse error: " ++ e))
    | .ok r =>
      if r.next.rest = [] then .ok r.node
      else
        .error (.validation
          ("RSQL parse error: unexpected token at position " ++ toString r.next.pos))

/-- The trees that `parse_rsql` returns are well formed. -/
theorem parseRsql_wellFormed {input : String} {node : FilterNode}
    (h : parseRsql toLowercase input = .ok node) : node.WellFormed := by
  unfold parseRsql at h
  dsimp only at h
  split at h
  · cases h
  split at h
  · cases h
  · next r _ =>
    split at h
    · cases h
      exact r.wellFormed
    · cases h

end Parse

/-! ### Sort lists -/

/-- One part of a sort list; empty parts are skipped. -/
def parseSortPart (part : String) : Option SortSpec :=
  match (trim part).toList with
  | [] => none
  | '-' :: field => if field = [] then none else some ⟨String.ofList field, true⟩
  | field => some ⟨String.ofList field, false⟩

/-- `parse_sort`. -/
def parseSort (input : String) : List SortSpec := (splitChar input ',').filterMap parseSortPart

end Authrs.Query
