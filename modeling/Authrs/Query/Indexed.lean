import Authrs.Query.Grammar

/-!
# The parser over an index

The parser of `src/query/rsql.rs` keeps all characters and the index of the next one. It looks
characters up by index, which finds nothing at the end, and it takes slices, which panic when they are
out of range. Here the recursion is bounded by fuel. Neither limit is met: with fuel for the length of
the input, the parser over an index ends, and with the result of the parser over what is left.

## Main definitions

* `Cursor`, `Cursor.slice`: the characters with an index, and slices of them
* `Halt`: an error of the source, a panic, or no fuel left
* `Cursor.parseRsql`: `parse_rsql` over an index

## Main results

* `Cursor.parse_eq`: with fuel for what is left, the two parsers agree
* `Cursor.parseRsql_eq`: no slice is out of range, and the recursion ends
-/

namespace Authrs.Query

/-- Why a parser stops without a tree. -/
inductive Halt
  | refused (message : String)
  /-- The panic of a slice. -/
  | outOfRange
  | outOfFuel
  deriving DecidableEq, Repr

/-- `Parser`. -/
structure Cursor where
  chars : List Char
  pos : Nat

namespace Cursor

/-! ### The parser -/

def peek (c : Cursor) : Option Char := c.chars[c.pos]?

def atEnd (c : Cursor) : Bool := c.chars.length ≤ c.pos

/-- `self.pos += n`. -/
def advance (c : Cursor) (n : Nat) : Cursor := { c with pos := c.pos + n }

/-- `self.chars[start..self.pos]`. -/
def slice (c : Cursor) (start : Nat) : Except Halt String :=
  if start ≤ c.pos ∧ c.pos ≤ c.chars.length then
    .ok (.ofList ((c.chars.drop start).take (c.pos - start)))
  else .error .outOfRange

/-- `self.chars.get(self.pos..self.pos + 2)`. -/
def two (c : Cursor) : String :=
  if c.pos + 2 ≤ c.chars.length then .ofList ((c.chars.drop c.pos).take 2) else ""

theorem lt_of_peek {c : Cursor} {a : Char} (h : c.peek = some a) : c.pos < c.chars.length :=
  (List.getElem?_eq_some_iff.mp h).1

/-- `while let Some(c) = self.peek()`, as long as the characters pass a test. -/
def scan (f : Char → Bool) (c : Cursor) : Cursor :=
  match _h : c.peek with
  | some a => if f a then scan f (c.advance 1) else c
  | none => c
termination_by c.chars.length - c.pos
decreasing_by
  have := lt_of_peek _h
  simp only [advance]
  omega

/-- The loop over a quoted value, which collects the characters. -/
def collect (val : List Char) (c : Cursor) : Except Halt (String × Cursor) :=
  match _h : c.peek with
  | none => .error (.refused ("unterminated quoted value at position " ++ toString c.pos))
  | some a =>
    if a = '"' then .ok (.ofList val, c.advance 1) else collect (val ++ [a]) (c.advance 1)
termination_by c.chars.length - c.pos
decreasing_by
  have := lt_of_peek _h
  simp only [advance]
  omega

/-- `parse_selector`. -/
def parseSelector (c : Cursor) : Except Halt (String × Cursor) :=
  let d := c.scan fun a => a.isAlphanum || a == '_'
  if d.pos = c.pos then .error (.refused ("expected field name at position " ++ toString d.pos))
  else do
    let field ← d.slice c.pos
    return (field, d)

/-- `parse_operator`. -/
def parseOperator (c : Cursor) : Except Halt ((RsqlOp × String) × Cursor) :=
  if c.two = "==" then return ((.eq, "=="), c.advance 2)
  else if c.two = "!=" then return ((.neq, "!="), c.advance 2)
  else if c.peek = some '=' then
    let d := (c.advance 1).scan (· != '=')
    if d.peek ≠ some '=' then
      .error (.refused ("unterminated operator at position " ++ toString d.pos))
    else do
      let name ← d.slice (c.pos + 1)
      let d := d.advance 1
      match namedOp name with
      | some op => return ((op, name), d)
      | none =>
        .error (.refused ("unknown operator '=" ++ name ++ "=' at position " ++ toString d.pos))
  else .error (.refused ("expected operator at position " ++ toString c.pos))

/-- `parse_value`. -/
def parseValue (c : Cursor) : Except Halt (String × Cursor) :=
  if c.peek = some '"' then collect [] (c.advance 1)
  else do
    let d := c.scan fun a => !",;()".toList.contains a
    let v ← d.slice c.pos
    return (v, d)

/-- The loop of `parse_arguments`. -/
def parseValues : Nat → List String → Cursor → Except Halt (List String × Cursor)
  | 0, _, _ => .error .outOfFuel
  | n + 1, values, c => do
    let (v, c) ← c.parseValue
    match c.peek with
    | some ',' => parseValues n (values ++ [v]) (c.advance 1)
    | some ')' => return (values ++ [v], c.advance 1)
    | _ => .error (.refused ("expected ',' or ')' at position " ++ toString c.pos))

/-- `parse_arguments`. -/
def parseArguments (fuel : Nat) (op : RsqlOp) (c : Cursor) : Except Halt (List String × Cursor) :=
  if op = .inList ∨ op = .out ∨ op = .between then
    if c.peek ≠ some '(' then
      .error (.refused ("expected '(' after operator at position " ++ toString c.pos))
    else parseValues fuel [] (c.advance 1)
  else do
    let (v, c) ← c.parseValue
    return ([v], c)

section Parse

variable (toLowercase : String → String)

/-- `parse_leaf`. -/
def parseLeaf (fuel : Nat) (c : Cursor) : Except Halt (FilterNode × Cursor) := do
  let (field, c) ← c.parseSelector
  let ((opRaw, opName), c) ← c.parseOperator
  if opName = "null" then
    let (raw, c) ← c.parseValue
    if toLowercase raw = "true" then return (.leaf field (.null true) [], c)
    else if toLowercase raw = "false" then return (.leaf field (.null false) [], c)
    else .error (.refused ("=null= expects true or false, got '" ++ toLowercase raw ++ "'"))
  else
    let (values, c) ← parseArguments fuel opRaw c
    return (.leaf field opRaw values, c)

mutual

/-- `parse_or`, which is `parse_expression`. -/
def parseOr : Nat → Cursor → Except Halt (FilterNode × Cursor)
  | 0, _ => .error .outOfFuel
  | n + 1, c => do
    let (first, c) ← parseAnd n c
    let (parts, c) ← orLoop n [first] c
    return (collapse .or parts, c)

/-- The loop of `parse_or`. -/
def orLoop : Nat → List FilterNode → Cursor → Except Halt (List FilterNode × Cursor)
  | 0, _, _ => .error .outOfFuel
  | n + 1, parts, c =>
    if c.peek = some ',' then do
      let (t, c) ← parseAnd n (c.advance 1)
      orLoop n (parts ++ [t]) c
    else return (parts, c)

/-- `parse_and`. -/
def parseAnd : Nat → Cursor → Except Halt (FilterNode × Cursor)
  | 0, _ => .error .outOfFuel
  | n + 1, c => do
    let (first, c) ← parseAtom n c
    let (parts, c) ← andLoop n [first] c
    return (collapse .and parts, c)

/-- The loop of `parse_and`. -/
def andLoop : Nat → List FilterNode → Cursor → Except Halt (List FilterNode × Cursor)
  | 0, _, _ => .error .outOfFuel
  | n + 1, parts, c =>
    if c.peek = some ';' then do
      let (t, c) ← parseAtom n (c.advance 1)
      andLoop n (parts ++ [t]) c
    else return (parts, c)

/-- `parse_atom`. -/
def parseAtom : Nat → Cursor → Except Halt (FilterNode × Cursor)
  | 0, _ => .error .outOfFuel
  | n + 1, c =>
    if c.peek = some '(' then do
      let (node, c) ← parseOr n (c.advance 1)
      if c.peek ≠ some ')' then
        .error (.refused ("expected ')' at position " ++ toString c.pos))
      else return (node, c.advance 1)
    else parseLeaf toLowercase n c

end

/-- **`parse_rsql`**: what it returns, unless it panics or does not end. -/
def parseRsql (input : String) : Except Halt (Except AppError FilterNode) :=
  let trimmed := trim input
  if trimmed = "" then return .error (.validation "empty RSQL expression")
  else
    match parseOr toLowercase (4 * trimmed.toList.length + 3) ⟨trimmed.toList, 0⟩ with
    | .error (.refused e) => return .error (.validation ("RSQL parse error: " ++ e))
    | .error halt => .error halt
    | .ok (node, c) =>
      if !c.atEnd then
        return .error (.validation
          ("RSQL parse error: unexpected token at position " ++ toString c.pos))
      else return .ok node

end Parse

/-! ### The two parsers -/

variable {c d : Cursor} {p q : Parser} {f : Char → Bool}

/-- What is left at an index, and the index. -/
def parser (c : Cursor) : Parser := ⟨c.chars.drop c.pos, c.pos⟩

/-- The index is within the characters, or at their end. -/
def InRange (c : Cursor) : Prop := c.pos ≤ c.chars.length

theorem parser_pos (c : Cursor) : c.parser.pos = c.pos := rfl

theorem parser_peek (c : Cursor) : c.parser.peek = c.peek := List.head?_drop

theorem parser_advance (c : Cursor) (n : Nat) : (c.advance n).parser = c.parser.skip n := by
  unfold parser advance Parser.skip
  rw [List.drop_drop]

theorem parser_two (c : Cursor) : c.parser.two = c.two := by
  unfold parser Parser.two two
  rw [List.length_drop]
  by_cases h : c.pos + 2 ≤ c.chars.length
  · rw [if_pos h, if_pos (by omega)]
  · rw [if_neg h, if_neg (by omega)]

theorem inRange_advance {a : Char} (h : c.peek = some a) : (c.advance 1).InRange := lt_of_peek h

/-- A parser over an index reads what the parser over what is left reads. -/
def Matches {α : Type} : Except String (α × Parser) → Except Halt (α × Cursor) → Prop
  | .error e, y => y = .error (.refused e)
  | .ok (a, q), y => ∃ d, y = .ok (a, d) ∧ d.parser = q ∧ d.InRange

theorem takeWhile_stop (h : ∀ a ∈ p.peek, f a = false) : p.takeWhile f = ("", p) := by
  obtain ⟨l, n⟩ := p
  cases l with
  | nil => rfl
  | cons a l =>
    have ha := h a rfl
    unfold Parser.takeWhile
    simp only [List.takeWhile_cons, ha]
    rfl

theorem takeWhile_step {a : Char} (h : p.peek = some a) (ha : f a = true) :
    p.takeWhile f =
      (.ofList (a :: ((p.skip 1).takeWhile f).1.toList), ((p.skip 1).takeWhile f).2) := by
  obtain ⟨l, n⟩ := p
  cases l with
  | nil => cases h
  | cons b l =>
    obtain rfl : b = a := Option.some.inj h
    unfold Parser.takeWhile Parser.skip
    simp only [List.takeWhile_cons, ha, if_true, List.drop_succ_cons, List.drop_zero,
      List.length_cons, String.toList_ofList, Prod.mk.injEq, Parser.mk.injEq, true_and]
    omega

/-- The loop moves over the characters that the text takes. -/
theorem scan_spec (f : Char → Bool) (hc : c.InRange) :
    (c.scan f).parser = (c.parser.takeWhile f).2 ∧ (c.scan f).InRange ∧
      (c.scan f).chars = c.chars := by
  fun_induction scan f c with
  | case1 c a ha hfa ih =>
    obtain ⟨hparser, hin, hchars⟩ := ih (inRange_advance ha)
    have hpeek : c.parser.peek = some a := (parser_peek c).trans ha
    rw [takeWhile_step hpeek hfa, hparser, parser_advance]
    exact ⟨rfl, hin, hchars⟩
  | case2 c a ha hfa =>
    have hstop : ∀ b ∈ c.parser.peek, f b = false := by
      intro b hb
      rw [parser_peek, ha] at hb
      obtain rfl : a = b := Option.some.inj hb
      exact Bool.eq_false_of_not_eq_true hfa
    rw [takeWhile_stop hstop]
    exact ⟨rfl, hc, rfl⟩
  | case3 c ha =>
    have hstop : ∀ b ∈ c.parser.peek, f b = false := by
      intro b hb
      rw [parser_peek, ha] at hb
      cases hb
    rw [takeWhile_stop hstop]
    exact ⟨rfl, hc, rfl⟩

/-- **The slice of what is scanned is in range**, and it is the text. -/
theorem slice_scan (f : Char → Bool) (hc : c.InRange) :
    (c.scan f).slice c.pos = .ok (c.parser.takeWhile f).1 := by
  obtain ⟨hparser, hin, hchars⟩ := scan_spec f hc
  obtain ⟨l, htext, -, ⟨hrest, hpos⟩, -⟩ := Parser.consumes_takeWhile c.parser f
  rw [← hparser] at hrest hpos
  change (c.scan f).pos = c.pos + l.length at hpos
  change c.chars.drop c.pos = l ++ (c.scan f).parser.rest at hrest
  unfold slice
  rw [if_pos ⟨by omega, hin⟩, hchars, hrest, hpos, Nat.add_sub_cancel_left, List.take_left, htext]

/-- The loop over a quoted value. -/
theorem matches_collect (hc : c.InRange) (val : List Char) :
    Matches
      (if (c.parser.takeWhile (· != '"')).2.peek = some '"' then
        .ok (.ofList (val ++ (c.parser.takeWhile (· != '"')).1.toList),
          (c.parser.takeWhile (· != '"')).2.skip 1)
      else .error ("unterminated quoted value at position " ++
        toString (c.parser.takeWhile (· != '"')).2.pos))
      (collect val c) := by
  fun_induction collect val c with
  | case1 val c ha =>
    have hpeek : c.parser.peek = none := (parser_peek c).trans ha
    have hstop : ∀ b ∈ c.parser.peek, (b != '"') = false := by
      intro b hb
      rw [hpeek] at hb
      cases hb
    rw [takeWhile_stop hstop, if_neg (by rw [hpeek]; exact nofun)]
    rfl
  | case2 val c ha =>
    have hpeek : c.parser.peek = some '"' := (parser_peek c).trans ha
    have hstop : ∀ b ∈ c.parser.peek, (b != '"') = false := by
      intro b hb
      rw [hpeek] at hb
      obtain rfl : '"' = b := Option.some.inj hb
      rfl
    rw [takeWhile_stop hstop, if_pos hpeek]
    refine ⟨c.advance 1, ?_, parser_advance c 1, inRange_advance ha⟩
    rw [show ("" : String).toList = [] from rfl, List.append_nil]
  | case3 val c a ha hne ih =>
    have hpeek : c.parser.peek = some a := (parser_peek c).trans ha
    have hstep := takeWhile_step (f := (· != '"')) hpeek (bne_iff_ne.mpr hne)
    have hrec := ih (inRange_advance ha)
    rw [parser_advance, List.append_assoc] at hrec
    rw [hstep, String.toList_ofList]
    exact hrec

theorem matches_parseSelector (hc : c.InRange) :
    Matches (Query.parseSelector c.parser) c.parseSelector := by
  obtain ⟨hparser, hin, -⟩ := scan_spec (fun a => a.isAlphanum || a == '_') hc
  have hslice := slice_scan (fun a => a.isAlphanum || a == '_') hc
  have hpos : (c.parser.takeWhile fun a => a.isAlphanum || a == '_').2.pos =
      (c.scan fun a => a.isAlphanum || a == '_').pos := congrArg Parser.pos hparser.symm
  unfold Query.parseSelector Cursor.parseSelector
  dsimp only
  rw [hpos, parser_pos]
  by_cases hsame : (c.scan fun a => a.isAlphanum || a == '_').pos = c.pos
  · rw [if_pos hsame, if_pos hsame]
    rfl
  · rw [if_neg hsame, if_neg hsame, hslice]
    exact ⟨_, rfl, hparser, hin⟩

theorem matches_parseValue (hc : c.InRange) : Matches (Query.parseValue c.parser) c.parseValue := by
  unfold Query.parseValue Cursor.parseValue
  rw [parser_peek]
  by_cases hquote : c.peek = some '"'
  · have hcollect := matches_collect (inRange_advance hquote) []
    rw [parser_advance, List.nil_append, String.ofList_toList] at hcollect
    rw [if_pos hquote, if_pos hquote]
    exact hcollect
  · obtain ⟨hparser, hin, -⟩ := scan_spec (fun a => !",;()".toList.contains a) hc
    rw [if_neg hquote, if_neg hquote]
    dsimp only
    rw [slice_scan _ hc]
    exact ⟨_, rfl, hparser, hin⟩

theorem matches_parseOperator (c : Cursor) :
    Matches (Query.parseOperator c.parser) c.parseOperator := by
  have htwo : ∀ s : String, s ≠ "" → c.two = s → (c.advance 2).InRange := by
    intro s hs h
    unfold two at h
    split at h
    · rename_i hlen
      exact hlen
    · exact absurd h.symm hs
  unfold Query.parseOperator Cursor.parseOperator
  rw [parser_two, parser_peek]
  by_cases heq : c.two = "=="
  · rw [if_pos heq, if_pos heq]
    exact ⟨_, rfl, parser_advance c 2, htwo _ (by decide) heq⟩
  rw [if_neg heq, if_neg heq]
  by_cases hneq : c.two = "!="
  · rw [if_pos hneq, if_pos hneq]
    exact ⟨_, rfl, parser_advance c 2, htwo _ (by decide) hneq⟩
  rw [if_neg hneq, if_neg hneq]
  by_cases hopen : c.peek = some '='
  · obtain ⟨hparser, hin, -⟩ := scan_spec (· != '=') (inRange_advance hopen)
    have hslice := slice_scan (· != '=') (inRange_advance hopen)
    rw [parser_advance] at hparser hslice
    rw [if_pos hopen, if_pos hopen]
    dsimp only
    rw [← hparser, parser_peek]
    by_cases hclose : ((c.advance 1).scan (· != '=')).peek = some '='
    · rw [if_neg (not_not.mpr hclose), if_neg (not_not.mpr hclose)]
      change (((c.advance 1).scan (· != '=')).slice (c.pos + 1)) = _ at hslice
      rw [hslice]
      dsimp only [bind, Except.bind]
      cases namedOp ((c.parser.skip 1).takeWhile (· != '=')).1 with
      | some op => exact ⟨_, rfl, parser_advance _ 1, inRange_advance hclose⟩
      | none =>
        rw [← parser_advance]
        rfl
    · rw [if_pos hclose, if_pos hclose]
      rfl
  · rw [if_neg hopen, if_neg hopen]
    rfl

/-- Reading on after something that was read. -/
theorem Matches.elim {α : Type} {x : Except String (α × Parser)} {y : Except Halt (α × Cursor)}
    (h : Matches x y) :
    (∃ e, x = .error e ∧ y = .error (.refused e)) ∨
      ∃ a d, x = .ok (a, d.parser) ∧ y = .ok (a, d) ∧ d.InRange := by
  match x, h with
  | .error e, h => exact .inl ⟨e, rfl, h⟩
  | .ok (a, q), ⟨d, hy, hq, hin⟩ =>
    subst hq
    exact .inr ⟨a, d, rfl, hy, hin⟩

theorem matches_ok {α : Type} {a : α} (hq : d.parser = q) (hin : d.InRange) :
    Matches (.ok (a, q)) (.ok (a, d)) := ⟨d, rfl, hq, hin⟩

/-- One value of a list, and what follows it. -/
theorem parseValues_eq (p : Parser) : Query.parseValues p =
    (Query.parseValue p).bind fun x =>
      match x.2.peek with
      | some ',' => (Query.parseValues (x.2.skip 1)).map fun r => (x.1 :: r.1, r.2)
      | some ')' => .ok ([x.1], x.2.skip 1)
      | _ => .error ("expected ',' or ')' at position " ++ toString x.2.pos) := by
  rw [Query.parseValues]
  split
  · rename_i e he
    rw [he]
    rfl
  · rename_i v q he
    rw [he]
    dsimp only [Except.bind]
    split
    · rename_i hcomma
      rw [hcomma]
      split
      · rename_i e hrec
        rw [hrec]
        rfl
      · rename_i vs r hrec
        rw [hrec]
        rfl
    · rename_i hclose
      rw [hclose]
      rfl
    · rename_i hcomma hclose
      split
      · exact absurd ‹_› hcomma
      · exact absurd ‹_› hclose
      · rfl

/-- The loop over the values of a list, after those that were read. -/
theorem matches_parseValues (n : Nat) (hc : c.InRange) (hn : c.parser.rest.length < n)
    (values : List String) :
    Matches ((Query.parseValues c.parser).map fun x => (values ++ x.1, x.2))
      (parseValues n values c) := by
  induction n generalizing c values with
  | zero => exact absurd hn (Nat.not_lt_zero _)
  | succ n ih =>
    rw [parseValues_eq, Cursor.parseValues]
    rcases (matches_parseValue hc).elim with ⟨e, hx, hy⟩ | ⟨v, d, hx, hy, hin⟩
    · rw [hx, hy]
      rfl
    · rw [hx, hy]
      dsimp only [bind, Except.bind]
      rw [parser_peek]
      have hfrom : c.parser.From d.parser := parseValue_from hx
      unfold Parser.From at hfrom
      split
      · rename_i hcomma
        have hpast := Parser.past_skip (Parser.rest_ne_nil ((parser_peek d).trans hcomma)) Nat.one_pos
        unfold Parser.Past at hpast
        have hrest := ih (inRange_advance hcomma) (by rw [parser_advance]; omega) (values ++ [v])
        rw [parser_advance] at hrest
        cases hvalues : Query.parseValues (d.parser.skip 1) with
        | error e =>
          rw [hvalues] at hrest
          exact hrest
        | ok r =>
          rw [hvalues] at hrest
          simp only [Except.map, List.append_assoc, List.singleton_append] at hrest ⊢
          exact hrest
      · rename_i hclose
        exact matches_ok (parser_advance d 1) (inRange_advance hclose)
      · rfl

theorem matches_parseArguments {op : RsqlOp} {fuel : Nat} (hc : c.InRange)
    (hfuel : c.parser.rest.length < fuel) :
    Matches (Query.parseArguments op c.parser) (parseArguments fuel op c) := by
  unfold Query.parseArguments Cursor.parseArguments
  by_cases hop : op = .inList ∨ op = .out ∨ op = .between
  · rw [if_pos hop, if_pos hop, parser_peek]
    by_cases hopen : c.peek = some '('
    · rw [if_neg (not_not.mpr hopen), if_neg (not_not.mpr hopen)]
      have hpast := Parser.past_skip (Parser.rest_ne_nil ((parser_peek c).trans hopen)) Nat.one_pos
      unfold Parser.Past at hpast
      have hvalues := matches_parseValues fuel (inRange_advance hopen)
        (by rw [parser_advance]; omega) []
      rw [parser_advance] at hvalues
      cases hx : Query.parseValues (c.parser.skip 1) with
      | error e =>
        rw [hx] at hvalues
        exact hvalues
      | ok r =>
        rw [hx] at hvalues
        exact hvalues
    · rw [if_pos hopen, if_pos hopen]
      rfl
  · rw [if_neg hop, if_neg hop]
    rcases (matches_parseValue hc).elim with ⟨e, hx, hy⟩ | ⟨v, d, hx, hy, hin⟩
    · rw [hx, hy]
      rfl
    · rw [hx, hy]
      exact matches_ok rfl hin

/-- The tree and the position of what is parsed. -/
def pair {p : Parser} (r : Parsed p) : FilterNode × Parser := (r.node, r.next)

/-- The parts of a leaf, one after the other. -/
theorem parseLeaf_eq (toLowercase : String → String) (p : Parser) :
    (Query.parseLeaf toLowercase p).map pair =
      (Query.parseSelector p).bind fun f =>
        (Query.parseOperator f.2).bind fun o =>
          if o.1.2 = "null" then
            (Query.parseValue o.2).bind fun v =>
              if toLowercase v.1 = "true" then .ok (.leaf f.1 (.null true) [], v.2)
              else if toLowercase v.1 = "false" then .ok (.leaf f.1 (.null false) [], v.2)
              else .error ("=null= expects true or false, got '" ++ toLowercase v.1 ++ "'")
          else (Query.parseArguments o.1.1 o.2).map fun v => (.leaf f.1 o.1.1 v.1, v.2) := by
  unfold Query.parseLeaf
  split
  · rename_i e hf
    simp only [hf, Except.bind, Except.map]
  · rename_i field q hf
    split
    · rename_i e ho
      simp only [hf, ho, Except.bind, Except.map]
    · rename_i op name r ho
      by_cases hname : name = "null"
      · rw [dif_pos hname]
        split
        · rename_i e hv
          simp only [hf, ho, hv, if_pos hname, Except.bind, Except.map]
        · rename_i raw s hv
          simp only [hf, ho, hv, if_pos hname, Except.bind]
          split
          · rfl
          · split
            · rfl
            · rfl
      · rw [dif_neg hname]
        split
        · rename_i e hv
          simp only [hf, ho, hv, if_neg hname, Except.bind, Except.map]
        · rename_i values s hv
          simp only [hf, ho, hv, if_neg hname, Except.bind, Except.map, pair]

theorem matches_parseLeaf {toLowercase : String → String} {fuel : Nat} (hc : c.InRange)
    (hfuel : c.parser.rest.length ≤ fuel) :
    Matches ((Query.parseLeaf toLowercase c.parser).map pair) (parseLeaf toLowercase fuel c) := by
  rw [parseLeaf_eq]
  unfold Cursor.parseLeaf
  rcases (matches_parseSelector hc).elim with ⟨e, hx, hy⟩ | ⟨field, d, hx, hy, hd⟩
  · rw [hx, hy]
    rfl
  rw [hx, hy]
  have hselector : c.parser.Past d.parser := parseSelector_past hx
  dsimp only [bind, Except.bind]
  rcases (matches_parseOperator d).elim with ⟨e, hx, hy⟩ | ⟨⟨op, name⟩, d', hx, hy, hd'⟩
  · rw [hx, hy]
    rfl
  rw [hx, hy]
  have hoperator : c.parser.Past d'.parser := hselector.trans_from (parseOperator_ok hx).2
  unfold Parser.Past at hoperator
  dsimp only
  by_cases hname : name = "null"
  · rw [if_pos hname, if_pos hname]
    rcases (matches_parseValue hd').elim with ⟨e, hx, hy⟩ | ⟨raw, d'', hx, hy, hd''⟩
    · rw [hx, hy]
      rfl
    rw [hx, hy]
    dsimp only
    split
    · exact matches_ok rfl hd''
    · split
      · exact matches_ok rfl hd''
      · rfl
  · rw [if_neg hname, if_neg hname]
    rcases (matches_parseArguments hd' (by omega : d'.parser.rest.length < fuel)).elim with
      ⟨e, hx, hy⟩ | ⟨values, d'', hx, hy, hd''⟩
    · rw [hx, hy]
      rfl
    · rw [hx, hy]
      exact matches_ok rfl hd''

/-! ### Groups -/

section Groups

variable {toLowercase : String → String}

/-- The further members of a group, after those that were read, and the position after them. -/
def parts {p : Parser} (before : List FilterNode) (r : Parts p) : List FilterNode × Parser :=
  (before ++ r.nodes, r.next)

/-- Reading on after a tree. -/
theorem Matches.parsed {x : Except String (Parsed p)} {y : Except Halt (FilterNode × Cursor)}
    (h : Matches (x.map pair) y) :
    (∃ e, x = .error e ∧ y = .error (.refused e)) ∨
      ∃ r d, x = .ok r ∧ r.next = d.parser ∧ y = .ok (r.node, d) ∧ d.InRange := by
  match x, h with
  | .error e, h => exact .inl ⟨e, rfl, h⟩
  | .ok r, ⟨d, hy, hq, hin⟩ => exact .inr ⟨r, d, rfl, hq.symm, hy, hin⟩

/-- Finishing what was read. -/
theorem Matches.map {α β : Type} {x : Except String (α × Parser)} {y : Except Halt (α × Cursor)}
    (f : α → β) (h : Matches x y) :
    Matches (x.map fun a => (f a.1, a.2)) (y >>= fun a => pure (f a.1, a.2)) := by
  rcases h.elim with ⟨e, rfl, rfl⟩ | ⟨a, d, rfl, rfl, hin⟩
  · rfl
  · exact matches_ok rfl hin

theorem parseOr_eq (p : Parser) : (Query.parseOr toLowercase p).map pair =
    (Query.parseAnd toLowercase p).bind fun first =>
      ((Query.parseOrRest toLowercase first.next).map (parts [first.node])).map fun x =>
        (collapse .or x.1, x.2) := by
  rw [Query.parseOr]
  cases Query.parseAnd toLowercase p with
  | error e => rfl
  | ok first =>
    dsimp only [Except.bind]
    split
    · rename_i e he
      rw [he]
      rfl
    · rename_i q hw hq he
      rw [he]
      rfl
    · rename_i b bs q hw hq he
      rw [he]
      rfl

theorem parseAnd_eq (p : Parser) : (Query.parseAnd toLowercase p).map pair =
    (Query.parseAtom toLowercase p).bind fun first =>
      ((Query.parseAndRest toLowercase first.next).map (parts [first.node])).map fun x =>
        (collapse .and x.1, x.2) := by
  rw [Query.parseAnd]
  cases Query.parseAtom toLowercase p with
  | error e => rfl
  | ok first =>
    dsimp only [Except.bind]
    split
    · rename_i e he
      rw [he]
      rfl
    · rename_i q hw hq he
      rw [he]
      rfl
    · rename_i b bs q hw hq he
      rw [he]
      rfl

theorem parseOrRest_eq (p : Parser) (before : List FilterNode) :
    (Query.parseOrRest toLowercase p).map (parts before) =
      if p.peek = some ',' then
        (Query.parseAnd toLowercase (p.skip 1)).bind fun t =>
          (Query.parseOrRest toLowercase t.next).map (parts (before ++ [t.node]))
      else .ok (before, p) := by
  rw [Query.parseOrRest]
  by_cases hc : p.peek = some ','
  · rw [dif_pos hc, if_pos hc]
    cases Query.parseAnd toLowercase (p.skip 1) with
    | error e => rfl
    | ok t =>
      dsimp only [Except.bind]
      cases Query.parseOrRest toLowercase t.next with
      | error e => rfl
      | ok r => simp only [Except.map, parts, List.append_assoc, List.singleton_append]
  · rw [dif_neg hc, if_neg hc]
    simp only [Except.map, parts, List.append_nil]

theorem parseAndRest_eq (p : Parser) (before : List FilterNode) :
    (Query.parseAndRest toLowercase p).map (parts before) =
      if p.peek = some ';' then
        (Query.parseAtom toLowercase (p.skip 1)).bind fun t =>
          (Query.parseAndRest toLowercase t.next).map (parts (before ++ [t.node]))
      else .ok (before, p) := by
  rw [Query.parseAndRest]
  by_cases hc : p.peek = some ';'
  · rw [dif_pos hc, if_pos hc]
    cases Query.parseAtom toLowercase (p.skip 1) with
    | error e => rfl
    | ok t =>
      dsimp only [Except.bind]
      cases Query.parseAndRest toLowercase t.next with
      | error e => rfl
      | ok r => simp only [Except.map, parts, List.append_assoc, List.singleton_append]
  · rw [dif_neg hc, if_neg hc]
    simp only [Except.map, parts, List.append_nil]

theorem parseAtom_eq {p : Parser} (hopen : p.peek = some '(') :
    (Query.parseAtom toLowercase p).map pair =
      (Query.parseOr toLowercase (p.skip 1)).bind fun r =>
        if r.next.peek = some ')' then .ok (r.node, r.next.skip 1)
        else .error ("expected ')' at position " ++ toString r.next.pos) := by
  rw [Query.parseAtom, dif_pos hopen]
  cases Query.parseOr toLowercase (p.skip 1) with
  | error e => rfl
  | ok r =>
    dsimp only [Except.bind]
    split
    · rfl
    · rfl

/-- **With fuel for what is left**, the two parsers agree. -/
structure Agree (toLowercase : String → String) (n : Nat) : Prop where
  or : ∀ c : Cursor, c.InRange → 4 * c.parser.rest.length + 2 < n →
    Matches ((Query.parseOr toLowercase c.parser).map pair) (parseOr toLowercase n c)
  orLoop : ∀ (c : Cursor) (before : List FilterNode), c.InRange → 4 * c.parser.rest.length < n →
    Matches ((Query.parseOrRest toLowercase c.parser).map (parts before))
      (orLoop toLowercase n before c)
  and : ∀ c : Cursor, c.InRange → 4 * c.parser.rest.length + 1 < n →
    Matches ((Query.parseAnd toLowercase c.parser).map pair) (parseAnd toLowercase n c)
  andLoop : ∀ (c : Cursor) (before : List FilterNode), c.InRange → 4 * c.parser.rest.length < n →
    Matches ((Query.parseAndRest toLowercase c.parser).map (parts before))
      (andLoop toLowercase n before c)
  atom : ∀ c : Cursor, c.InRange → 4 * c.parser.rest.length < n →
    Matches ((Query.parseAtom toLowercase c.parser).map pair) (parseAtom toLowercase n c)

theorem parse_agree (n : Nat) : Agree toLowercase n := by
  induction n with
  | zero =>
    exact ⟨fun _ _ h => absurd h (Nat.not_lt_zero _), fun _ _ _ h => absurd h (Nat.not_lt_zero _),
      fun _ _ h => absurd h (Nat.not_lt_zero _), fun _ _ _ h => absurd h (Nat.not_lt_zero _),
      fun _ _ h => absurd h (Nat.not_lt_zero _)⟩
  | succ n ih =>
    -- Each parser consumes before it calls another one with a smaller number, or calls one of a lower level.
    refine ⟨fun c hc hn => ?_, fun c before hc hn => ?_, fun c hc hn => ?_,
      fun c before hc hn => ?_, fun c hc hn => ?_⟩
    · rw [parseOr_eq, Cursor.parseOr]
      rcases (ih.and c hc (by omega)).parsed with ⟨e, hx, hy⟩ | ⟨first, d, hx, hnext, hy, hin⟩
      · rw [hx, hy]
        rfl
      have hpast := first.past
      rw [hnext] at hpast
      unfold Parser.Past at hpast
      have hrest := (ih.orLoop d [first.node] hin (by omega)).map (collapse .or)
      rw [← hnext] at hrest
      rw [hx, hy]
      exact hrest
    · rw [parseOrRest_eq, Cursor.orLoop, parser_peek]
      -- The separator is consumed, so the number that is left suffices for what is left of the text.
      by_cases hsep : c.peek = some ','
      · have hstep := Parser.past_skip (Parser.rest_ne_nil ((parser_peek c).trans hsep)) Nat.one_pos
        have hfuel := hstep
        unfold Parser.Past at hfuel
        have hand := ih.and _ (inRange_advance hsep) (by rw [parser_advance]; omega)
        rw [parser_advance] at hand
        rw [if_pos hsep, if_pos hsep]
        rcases hand.parsed with ⟨e, hx, hy⟩ | ⟨t, d, hx, hnext, hy, hin⟩
        · rw [hx, hy]
          rfl
        have hpast := hstep.trans_from t.past.from
        rw [hnext] at hpast
        unfold Parser.Past at hpast
        have hrest := ih.orLoop d (before ++ [t.node]) hin (by omega)
        rw [← hnext] at hrest
        rw [hx, hy]
        exact hrest
      · rw [if_neg hsep, if_neg hsep]
        exact matches_ok rfl hc
    · rw [parseAnd_eq, Cursor.parseAnd]
      rcases (ih.atom c hc (by omega)).parsed with ⟨e, hx, hy⟩ | ⟨first, d, hx, hnext, hy, hin⟩
      · rw [hx, hy]
        rfl
      have hpast := first.past
      rw [hnext] at hpast
      unfold Parser.Past at hpast
      have hrest := (ih.andLoop d [first.node] hin (by omega)).map (collapse .and)
      rw [← hnext] at hrest
      rw [hx, hy]
      exact hrest
    · rw [parseAndRest_eq, Cursor.andLoop, parser_peek]
      by_cases hsep : c.peek = some ';'
      · have hstep := Parser.past_skip (Parser.rest_ne_nil ((parser_peek c).trans hsep)) Nat.one_pos
        have hfuel := hstep
        unfold Parser.Past at hfuel
        have hatom := ih.atom _ (inRange_advance hsep) (by rw [parser_advance]; omega)
        rw [parser_advance] at hatom
        rw [if_pos hsep, if_pos hsep]
        rcases hatom.parsed with ⟨e, hx, hy⟩ | ⟨t, d, hx, hnext, hy, hin⟩
        · rw [hx, hy]
          rfl
        have hpast := hstep.trans_from t.past.from
        rw [hnext] at hpast
        unfold Parser.Past at hpast
        have hrest := ih.andLoop d (before ++ [t.node]) hin (by omega)
        rw [← hnext] at hrest
        rw [hx, hy]
        exact hrest
      · rw [if_neg hsep, if_neg hsep]
        exact matches_ok rfl hc
    · rw [Cursor.parseAtom]
      -- A parenthesis opens a group; anything else is a leaf.
      by_cases hopen : c.peek = some '('
      · have hstep := Parser.past_skip (Parser.rest_ne_nil ((parser_peek c).trans hopen)) Nat.one_pos
        unfold Parser.Past at hstep
        have hor := ih.or _ (inRange_advance hopen) (by rw [parser_advance]; omega)
        rw [parser_advance] at hor
        rw [parseAtom_eq ((parser_peek c).trans hopen), if_pos hopen]
        rcases hor.parsed with ⟨e, hx, hy⟩ | ⟨r, d, hx, hnext, hy, hin⟩
        · rw [hx, hy]
          rfl
        rw [hx, hy]
        dsimp only [bind, Except.bind]
        rw [hnext, parser_peek]
        by_cases hclose : d.peek = some ')'
        · rw [if_pos hclose, if_neg (not_not.mpr hclose)]
          exact matches_ok (parser_advance d 1) (inRange_advance hclose)
        · rw [if_neg hclose, if_pos hclose]
          rfl
      · rw [Query.parseAtom_leaf (by rw [parser_peek]; exact hopen), if_neg hopen]
        exact matches_parseLeaf hc (by omega)

/-- The two parsers from the start of a text. -/
theorem parse_start (toLowercase : String → String) (cs : List Char) :
    (∃ e, Query.parseOr toLowercase ⟨cs, 0⟩ = .error e ∧
      parseOr toLowercase (4 * cs.length + 3) ⟨cs, 0⟩ = .error (.refused e)) ∨
    ∃ (r : Parsed ⟨cs, 0⟩) (d : Cursor), Query.parseOr toLowercase ⟨cs, 0⟩ = .ok r ∧
      r.next = d.parser ∧ parseOr toLowercase (4 * cs.length + 3) ⟨cs, 0⟩ = .ok (r.node, d) := by
  have hor := (@parse_agree toLowercase (4 * cs.length + 3)).or ⟨cs, 0⟩ (Nat.zero_le _)
    (Nat.lt_succ_self _)
  rcases hor.parsed with ⟨e, hx, hy⟩ | ⟨r, d, hx, hnext, hy, -⟩
  · exact .inl ⟨e, hx, hy⟩
  · exact .inr ⟨r, d, hx, hnext, hy⟩

/-- **`parse_rsql` ends, and no slice is out of range.** It returns what the parser over what is
left returns. -/
theorem parseRsql_eq (toLowercase : String → String) (input : String) :
    parseRsql toLowercase input = .ok (Query.parseRsql toLowercase input) := by
  unfold Cursor.parseRsql Query.parseRsql
  dsimp only
  by_cases hempty : trim input = ""
  · rw [if_pos hempty, if_pos hempty]
    rfl
  rw [if_neg hempty, if_neg hempty]
  rcases parse_start toLowercase (trim input).toList with ⟨e, hx, hy⟩ | ⟨r, d, hx, hnext, hy⟩
  · rw [hx, hy]
    rfl
  · rw [hx, hy]
    dsimp only
    have hend : r.next.rest = [] ↔ d.atEnd = true := by
      rw [hnext]
      unfold parser atEnd
      rw [List.drop_eq_nil_iff, decide_eq_true_eq]
    have hpos : r.next.pos = d.pos := congrArg Parser.pos hnext
    by_cases hat : d.atEnd = true
    · rw [if_pos (hend.mpr hat), hat]
      rfl
    · rw [if_neg fun h => hat (hend.mp h), hpos, Bool.eq_false_of_not_eq_true hat]
      rfl

end Groups

end Cursor

end Authrs.Query
