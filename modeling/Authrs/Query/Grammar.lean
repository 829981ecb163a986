import Authrs.Query.Rsql

/-!
# The grammar of filters

What the parser of filters accepts, and the tree it returns, are given by a grammar. A group of one
member is its member. The parser takes fields and unquoted values as long as they go, which loses
nothing: what follows them in a text of the grammar ends them.

## Main definitions

* `IsField`, `IsValue`, `AreValues`, `IsLeaf`: the texts of fields, values and leaves
* `Derives`: the texts of atoms, and of their lists joined by `;` and by `,`
* `Parser.Consumes`: the text between two positions of the parser

## Main results

* `derives_of_parseOr`: what is parsed is derivable
* `parses_of_derives`: what is derivable is parsed
* `parseRsql_eq_ok`: the texts and the trees of `parse_rsql`
-/

namespace Authrs.Query

/-! ### Texts -/

/-- The characters of a field. -/
def isFieldChar (c : Char) : Bool := c.isAlphanum || c == '_'

/-- The characters of an unquoted value. -/
def isValueChar (c : Char) : Bool := !",;()".toList.contains c

/-- One or more ASCII letters and digits, and `_`. -/
def IsField (s : List Char) : Prop := s ≠ [] ∧ ∀ c ∈ s, isFieldChar c = true

/-- **A value**: quoted, or a possibly empty run of characters that does not begin with a quote. -/
inductive IsValue : List Char → String → Prop
  | quoted {v : List Char} (h : '"' ∉ v) : IsValue ('"' :: (v ++ ['"'])) (.ofList v)
  | plain {v : List Char} (h : ∀ c ∈ v, isValueChar c = true) (hstart : v.head? ≠ some '"') :
    IsValue v (.ofList v)

/-- Values that are separated by commas. -/
inductive AreValues : List Char → List String → Prop
  | one {s : List Char} {v : String} (h : IsValue s v) : AreValues s [v]
  | cons {s t : List Char} {v : String} {vs : List String} (h : IsValue s v) (hs : AreValues t vs) :
    AreValues (s ++ ',' :: t) (v :: vs)

/-- The operators that take a list. -/
def RsqlOp.TakesList : RsqlOp → Prop
  | inList => True
  | out => True
  | between => True
  | _ => False

/-- The operators that take one value. -/
def RsqlOp.TakesOne : RsqlOp → Prop
  | inList => False
  | out => False
  | between => False
  | null _ => False
  | _ => True

/-- The value of `=null=`. -/
def nullText (isNull : Bool) : String := if isNull then "true" else "false"

section Grammar

variable (toLowercase : String → String)

/-- **A leaf**: a field, an operator and what the operator takes. -/
inductive IsLeaf : List Char → FilterNode → Prop
  | scalar {f s : List Char} {op : RsqlOp} {v : String} (hf : IsField f) (hop : op.TakesOne)
    (h : IsValue s v) : IsLeaf (f ++ (op.display.toList ++ s)) (.leaf (.ofList f) op [v])
  | list {f s : List Char} {op : RsqlOp} {vs : List String} (hf : IsField f) (hop : op.TakesList)
    (h : AreValues s vs) :
    IsLeaf (f ++ (op.display.toList ++ '(' :: (s ++ [')']))) (.leaf (.ofList f) op vs)
  | null {f s : List Char} {raw : String} (isNull : Bool) (hf : IsField f) (h : IsValue s raw)
    (hraw : toLowercase raw = nullText isNull) :
    IsLeaf (f ++ ((RsqlOp.null isNull).display.toList ++ s)) (.leaf (.ofList f) (.null isNull) [])

/-- A group of one member is its member. -/
def collapse (group : List FilterNode → FilterNode) : List FilterNode → FilterNode
  | [t] => t
  | ts => group ts

inductive Rule
  /-- `atom = '(' or ')' | leaf` -/
  | atom
  /-- `and = atom (';' atom)*` -/
  | and
  /-- `or = and (',' and)*` -/
  | or

/-- **The grammar**: the text of an atom, of the atoms of an `and`, or of the members of an `or`. -/
inductive Derives : Rule → List Char → List FilterNode → Prop
  | leaf {s : List Char} {t : FilterNode} (h : IsLeaf toLowercase s t) : Derives .atom s [t]
  | group {s : List Char} {ts : List FilterNode} (h : Derives .or s ts) :
    Derives .atom ('(' :: (s ++ [')'])) [collapse .or ts]
  | andOne {s : List Char} {t : FilterNode} (h : Derives .atom s [t]) : Derives .and s [t]
  | andCons {s s' : List Char} {t : FilterNode} {ts : List FilterNode} (h : Derives .atom s [t])
    (hs : Derives .and s' ts) : Derives .and (s ++ ';' :: s') (t :: ts)
  | orOne {s : List Char} {ts : List FilterNode} (h : Derives .and s ts) :
    Derives .or s [collapse .and ts]
  | orCons {s s' : List Char} {ts ts' : List FilterNode} (h : Derives .and s ts)
    (hs : Derives .or s' ts') : Derives .or (s ++ ',' :: s') (collapse .and ts :: ts')

/-- The text of a filter, with its tree. -/
def IsFilter (s : List Char) (t : FilterNode) : Prop :=
  ∃ ts, Derives toLowercase .or s ts ∧ t = collapse .or ts

end Grammar

/-! ### Positions -/

namespace Parser

variable {p q r : Parser} {s t : List Char}

/-- **The text between two positions.** -/
def Consumes (p : Parser) (s : List Char) (q : Parser) : Prop :=
  p.rest = s ++ q.rest ∧ q.pos = p.pos + s.length

theorem Consumes.nil (p : Parser) : p.Consumes [] p := ⟨rfl, rfl⟩

theorem Consumes.trans (h : p.Consumes s q) (h' : q.Consumes t r) : p.Consumes (s ++ t) r := by
  refine ⟨?_, ?_⟩
  · rw [h.1, h'.1, List.append_assoc]
  · rw [h'.2, h.2, List.length_append]
    omega

theorem eq_mk {l : List Char} {n : Nat} (hrest : p.rest = l) (hpos : p.pos = n) : p = ⟨l, n⟩ := by
  rw [← hrest, ← hpos]

/-- The position after a text is the only one. -/
theorem Consumes.eq (h : p.Consumes s q) {rest : List Char} {pos : Nat} (hp : p = ⟨s ++ rest, pos⟩) :
    q = ⟨rest, pos + s.length⟩ := by
  obtain ⟨hrest, hpos⟩ := h
  subst hp
  obtain ⟨qrest, qpos⟩ := q
  change qpos = pos + s.length at hpos
  have hsame : rest = qrest := List.append_cancel_left hrest
  rw [hpos, hsame]

/-- The next character. -/
theorem consumes_peek {c : Char} (h : p.peek = some c) : p.Consumes [c] (p.skip 1) := by
  obtain ⟨rest, pos⟩ := p
  cases rest with
  | nil => cases h
  | cons b rest =>
    obtain rfl : b = c := Option.some.inj h
    exact ⟨rfl, rfl⟩

/-- The text that is taken is as long as it goes. -/
theorem consumes_takeWhile (p : Parser) (f : Char → Bool) :
    ∃ l, (p.takeWhile f).1 = .ofList l ∧ (∀ c ∈ l, f c = true) ∧ p.Consumes l (p.takeWhile f).2 ∧
      ∀ c, (p.takeWhile f).2.peek = some c → f c = false := by
  have hrest : (p.takeWhile f).2.rest = p.rest.dropWhile f := by
    have hdrop := @List.drop_left _ (p.rest.takeWhile f) (p.rest.dropWhile f)
    rw [List.takeWhile_append_dropWhile] at hdrop
    exact hdrop
  refine ⟨p.rest.takeWhile f, rfl, List.all_eq_true.mp List.all_takeWhile, ⟨?_, rfl⟩, ?_⟩
  · rw [hrest, List.takeWhile_append_dropWhile]
  · intro c hc
    unfold peek at hc
    rw [hrest] at hc
    have hnot := List.head?_dropWhile_not f p.rest
    rw [hc] at hnot
    exact hnot

/-- A text that is followed by nothing of its kind is what is taken. -/
theorem takeWhile_append {f : Char → Bool} (hs : ∀ c ∈ s, f c = true)
    (ht : ∀ c ∈ t.head?, f c = false) (pos : Nat) :
    (⟨s ++ t, pos⟩ : Parser).takeWhile f = (.ofList s, ⟨t, pos + s.length⟩) := by
  have htaken : (s ++ t).takeWhile f = s := by
    rw [List.takeWhile_append_of_pos hs]
    cases t with
    | nil => simp
    | cons c t =>
      have hc := ht c rfl
      rw [List.takeWhile_cons_of_neg (by simp [hc]), List.append_nil]
  unfold takeWhile skip
  simp only [htaken, List.drop_left']

end Parser

/-! ### Leaves -/

open Authrs.Query.Parser

section Leaves

variable {p q : Parser} {s rest : List Char} {pos : Nat}

/-- A value is ended by a separator, or by the end of the text. -/
def EndsValue (rest : List Char) : Prop := ∀ c ∈ rest.head?, isValueChar c = false

/-- A field is read up to the operator. -/
theorem parseSelector_of_isField (hs : IsField s) (hrest : ∀ c ∈ rest.head?, isFieldChar c = false) :
    parseSelector ⟨s ++ rest, pos⟩ = .ok (.ofList s, ⟨rest, pos + s.length⟩) := by
  have htaken : (⟨s ++ rest, pos⟩ : Parser).takeWhile (fun c => c.isAlphanum || c == '_') =
      (.ofList s, ⟨rest, pos + s.length⟩) := takeWhile_append hs.2 hrest pos
  have hlength : s.length ≠ 0 := fun h => hs.1 (List.length_eq_zero_iff.mp h)
  unfold parseSelector
  simp only [htaken]
  rw [if_neg (by omega)]

theorem isField_of_parseSelector {field : String} (h : parseSelector p = .ok (field, q)) :
    ∃ s, IsField s ∧ field = .ofList s ∧ p.Consumes s q := by
  obtain ⟨s, htext, hall, hconsumes, -⟩ := consumes_takeWhile p fun c => c.isAlphanum || c == '_'
  unfold parseSelector at h
  dsimp only at h
  split at h
  · cases h
  · rename_i hpos
    rw [Except.ok.inj h] at htext hpos hconsumes
    refine ⟨s, ⟨?_, hall⟩, htext, hconsumes⟩
    rintro rfl
    exact hpos hconsumes.2

/-- **A value is read** up to what ends it. -/
theorem parseValue_of_isValue {v : String} (h : IsValue s v) (hrest : EndsValue rest) :
    parseValue ⟨s ++ rest, pos⟩ = .ok (v, ⟨rest, pos + s.length⟩) := by
  cases h with
  | @quoted v hv =>
    have htaken : (⟨v ++ '"' :: rest, pos + 1⟩ : Parser).takeWhile (· != '"') =
        (.ofList v, ⟨'"' :: rest, pos + 1 + v.length⟩) := by
      refine takeWhile_append (fun c hc => ?_) (fun c hc => ?_) _
      · exact bne_iff_ne.mpr fun heq => hv (heq ▸ hc)
      · obtain rfl : '"' = c := Option.some.inj hc
        rfl
    have hskip : (⟨'"' :: (v ++ ['"']) ++ rest, pos⟩ : Parser).skip 1 = ⟨v ++ '"' :: rest, pos + 1⟩ := by
      simp [skip]
    unfold parseValue
    rw [if_pos (by rfl)]
    simp only [hskip, htaken]
    rw [if_pos (by rfl)]
    simp only [skip, List.drop_succ_cons, List.drop_zero, List.length_cons, List.length_append,
      List.length_nil, Except.ok.injEq, Prod.mk.injEq, Parser.mk.injEq, true_and]
    omega
  | plain hv hstart =>
    have hpeek : ¬ (⟨s ++ rest, pos⟩ : Parser).peek = some '"' := by
      intro hpeek
      unfold peek at hpeek
      cases s with
      | nil => exact absurd (hrest '"' hpeek) (by decide)
      | cons c s => exact hstart hpeek
    unfold parseValue
    rw [if_neg hpeek]
    exact congrArg Except.ok (takeWhile_append hv hrest pos)

theorem isValue_of_parseValue {v : String} (h : parseValue p = .ok (v, q)) :
    ∃ s, IsValue s v ∧ p.Consumes s q := by
  unfold parseValue at h
  dsimp only at h
  split at h
  · rename_i hquote
    obtain ⟨l, htext, hall, hconsumes, -⟩ := consumes_takeWhile (p.skip 1) (· != '"')
    split at h
    · rename_i hend
      obtain ⟨rfl, rfl⟩ := Prod.mk.inj (Except.ok.inj h)
      rw [htext]
      refine ⟨'"' :: (l ++ ['"']), .quoted fun hmem => ?_, ?_⟩
      · exact bne_iff_ne.mp (hall _ hmem) rfl
      · exact (consumes_peek hquote).trans (hconsumes.trans (consumes_peek hend))
    · cases h
  · rename_i hquote
    obtain ⟨l, htext, hall, hconsumes, -⟩ :=
      consumes_takeWhile p fun c => !",;()".toList.contains c
    rw [Except.ok.inj h] at htext hconsumes
    obtain rfl : v = .ofList l := htext
    refine ⟨l, .plain hall fun hstart => hquote ?_, hconsumes⟩
    unfold peek
    rw [hconsumes.1, List.head?_append, hstart]
    rfl

theorem parseValues_comma {v : String} (hv : parseValue p = .ok (v, q)) (hq : q.peek = some ',')
    {vs : List String} {r : Parser} (hrest : parseValues (q.skip 1) = .ok (vs, r)) :
    parseValues p = .ok (v :: vs, r) := by
  rw [parseValues]
  split
  · rename_i e he
    rw [hv] at he
    cases he
  · rename_i v' q' he
    rw [hv] at he
    cases he
    split
    · rw [hrest]
    · rename_i hclose
      rw [hq] at hclose
      cases hclose
    · rename_i hcomma _
      exact absurd hq hcomma

theorem parseValues_close {v : String} (hv : parseValue p = .ok (v, q)) (hq : q.peek = some ')') :
    parseValues p = .ok ([v], q.skip 1) := by
  rw [parseValues]
  split
  · rename_i e he
    rw [hv] at he
    cases he
  · rename_i v' q' he
    rw [hv] at he
    cases he
    split
    · rename_i hcomma
      rw [hq] at hcomma
      cases hcomma
    · rfl
    · rename_i hclose
      exact absurd hq hclose

theorem endsValue_cons {c : Char} (hc : isValueChar c = false) (l : List Char) : EndsValue (c :: l) := by
  intro b hb
  obtain rfl : c = b := Option.some.inj hb
  exact hc

/-- The values of a list are read up to its closing parenthesis. -/
theorem parseValues_of_areValues {vs : List String} (h : AreValues s vs) :
    parseValues ⟨s ++ ')' :: rest, pos⟩ = .ok (vs, ⟨rest, pos + (s.length + 1)⟩) := by
  induction h generalizing pos with
  | one h =>
    exact parseValues_close (parseValue_of_isValue h (endsValue_cons (by decide) rest)) rfl
  | @cons s t v vs h hs ih =>
    have hv : parseValue ⟨s ++ ',' :: (t ++ ')' :: rest), pos⟩ = _ :=
      parseValue_of_isValue h (endsValue_cons (by decide) _)
    have hvalues := parseValues_comma hv rfl (@ih (pos + s.length + 1))
    rw [List.append_assoc, List.cons_append, hvalues, List.length_append, List.length_cons]
    refine congrArg (fun n => Except.ok (v :: vs, Parser.mk rest n)) ?_
    omega

theorem areValues_of_parseValues {vs : List String} (h : parseValues p = .ok (vs, q)) :
    ∃ s, AreValues s vs ∧ p.Consumes (s ++ [')']) q := by
  fun_induction parseValues p generalizing vs with
  | case1 p e hv => cases h
  | case2 p v p' hv hc e hrec ih => cases h
  | case3 p v p' hv hc vs' r hrec ih =>
    cases h
    obtain ⟨s, hs, hconsumes⟩ := isValue_of_parseValue hv
    obtain ⟨t, ht, hrest⟩ := ih hrec
    refine ⟨s ++ ',' :: t, .cons hs ht, ?_⟩
    have hall := (hconsumes.trans (consumes_peek hc)).trans hrest
    rw [List.append_assoc] at hall
    rw [List.append_assoc, List.cons_append]
    exact hall
  | case4 p v p' hv hc =>
    cases h
    obtain ⟨s, hs, hconsumes⟩ := isValue_of_parseValue hv
    exact ⟨s, .one hs, hconsumes.trans (consumes_peek hc)⟩
  | case5 p v p' hv => cases h

/-- The name that is read with an operator. -/
def RsqlOp.name : RsqlOp → String
  | eq => "=="
  | neq => "!="
  | gt => "gt"
  | ge => "ge"
  | lt => "lt"
  | le => "le"
  | inList => "in"
  | out => "out"
  | like => "like"
  | ilike => "ilike"
  | contains => "contains"
  | starts => "starts"
  | ends => "ends"
  | between => "between"
  | null _ => "null"

/-- The operator that is read, before the value of `=null=` is. -/
def RsqlOp.asRead : RsqlOp → RsqlOp
  | null _ => .null true
  | op => op

/-- A named operator is written between equality signs. -/
theorem namedOp_display {name : String} {op : RsqlOp} (h : namedOp name = some op) :
    op.display.toList = '=' :: (name.toList ++ ['=']) ∧ name = op.name := by
  unfold namedOp at h
  split at h
  all_goals first | (cases h; exact ⟨rfl, rfl⟩) | cases h

/-- The operators with a name. -/
theorem RsqlOp.named (op : RsqlOp) (heq : op ≠ .eq) (hneq : op ≠ .neq) :
    op.name.toList ≠ [] ∧ '=' ∉ op.name.toList ∧ namedOp op.name = some op.asRead ∧
      op.display.toList = '=' :: (op.name.toList ++ ['=']) := by
  cases op with
  | eq => exact absurd rfl heq
  | neq => exact absurd rfl hneq
  | null b =>
    refine ⟨?_, ?_, rfl, ?_⟩
    · exact (by decide : "null".toList ≠ [])
    · exact (by decide : '=' ∉ "null".toList)
    · exact (by decide : "=null=".toList = '=' :: ("null".toList ++ ['=']))
  | _ => exact ⟨by decide, by decide, rfl, rfl⟩

theorem parseOperator_named {name : List Char} {op : RsqlOp} (hname : name ≠ []) (heq : '=' ∉ name)
    (hop : namedOp (.ofList name) = some op) :
    parseOperator ⟨'=' :: (name ++ '=' :: rest), pos⟩ =
      .ok ((op, .ofList name), ⟨rest, pos + (name.length + 2)⟩) := by
  obtain ⟨c, l, rfl⟩ := List.exists_cons_of_ne_nil hname
  have hc : c ≠ '=' := fun h => heq (h ▸ List.mem_cons_self)
  have htwo : (⟨'=' :: (c :: l ++ '=' :: rest), pos⟩ : Parser).two = .ofList ['=', c] := by
    unfold two
    rw [if_pos (by simp)]
    rfl
  have htaken : ((⟨'=' :: (c :: l ++ '=' :: rest), pos⟩ : Parser).skip 1).takeWhile (· != '=') =
      (.ofList (c :: l), ⟨'=' :: rest, pos + 1 + (c :: l).length⟩) := by
    refine takeWhile_append (fun b hb => ?_) (fun b hb => ?_) _
    · exact bne_iff_ne.mpr fun h => heq (h ▸ hb)
    · obtain rfl : '=' = b := Option.some.inj hb
      rfl
  have hne : ∀ b, String.ofList ['=', c] ≠ String.ofList [b, '='] := by
    intro b h
    have hlist := String.ofList_inj.mp h
    cases hlist
    exact hc rfl
  unfold parseOperator
  rw [htwo, if_neg (hne '='), if_neg (hne '!'), if_pos (by rfl)]
  simp only [htaken]
  rw [if_neg (by simp [peek]), hop]
  simp only [skip, List.drop_succ_cons, List.drop_zero, List.length_cons, Except.ok.injEq,
    Prod.mk.injEq, Parser.mk.injEq, true_and]
  omega

/-- **An operator is read.** -/
theorem parseOperator_display (op : RsqlOp) :
    parseOperator ⟨op.display.toList ++ rest, pos⟩ =
      .ok ((op.asRead, op.name), ⟨rest, pos + op.display.toList.length⟩) := by
  by_cases heq : op = .eq
  · subst heq
    rfl
  by_cases hneq : op = .neq
  · subst hneq
    rfl
  obtain ⟨hname, hmem, hop, hdisplay⟩ := op.named heq hneq
  have hop' : namedOp (.ofList op.name.toList) = some op.asRead := by
    rw [String.ofList_toList]
    exact hop
  have hread : parseOperator ⟨'=' :: (op.name.toList ++ '=' :: rest), pos⟩ = _ :=
    parseOperator_named hname hmem hop'
  rw [String.ofList_toList] at hread
  have htext : op.display.toList ++ rest = '=' :: (op.name.toList ++ '=' :: rest) := by
    rw [hdisplay]
    simp
  rw [htext, hread, hdisplay]
  simp

theorem consumes_two {a b : Char} (h : p.two = .ofList [a, b]) : p.Consumes [a, b] (p.skip 2) := by
  obtain ⟨l, n⟩ := p
  unfold two at h
  split at h
  · have hlist := String.ofList_inj.mp h
    match l, hlist with
    | [], hlist => cases hlist
    | [_], hlist => cases hlist
    | x :: y :: l, hlist =>
      cases hlist
      exact ⟨rfl, rfl⟩
  · have hlist := congrArg String.toList h
    simp at hlist

theorem consumes_parseOperator {op : RsqlOp} {name : String}
    (h : parseOperator p = .ok ((op, name), q)) :
    p.Consumes op.display.toList q ∧ name = op.name := by
  unfold parseOperator at h
  split at h
  · rename_i htwo
    cases h
    exact ⟨consumes_two htwo, rfl⟩
  · split at h
    · rename_i htwo
      cases h
      exact ⟨consumes_two htwo, rfl⟩
    · split at h
      · rename_i hpeek
        obtain ⟨l, htext, -, hconsumes, -⟩ := consumes_takeWhile (p.skip 1) (· != '=')
        dsimp only at h
        split at h
        · cases h
        · rename_i hclose
          rw [not_not] at hclose
          split at h
          · rename_i op' hop
            obtain ⟨⟨rfl, rfl⟩, rfl⟩ := Prod.mk.inj (Except.ok.inj h) |>.imp_left Prod.mk.inj
            obtain ⟨hdisplay, hname⟩ := namedOp_display hop
            refine ⟨?_, hname⟩
            rw [hdisplay, htext, String.toList_ofList]
            exact (consumes_peek hpeek).trans (hconsumes.trans (consumes_peek hclose))
          · cases h
      · cases h

/-- The text of what an operator takes. -/
inductive IsArguments (op : RsqlOp) : List Char → List String → Prop
  | one {s : List Char} {v : String} (hop : ¬ op.TakesList) (h : IsValue s v) : IsArguments op s [v]
  | list {s : List Char} {vs : List String} (hop : op.TakesList) (h : AreValues s vs) :
    IsArguments op ('(' :: (s ++ [')'])) vs

theorem takesList_iff {op : RsqlOp} :
    op.TakesList ↔ op = .inList ∨ op = .out ∨ op = .between := by
  cases op <;> simp [RsqlOp.TakesList]

theorem parseArguments_of_isArguments {op : RsqlOp} {vs : List String} (h : IsArguments op s vs)
    (hrest : EndsValue rest) :
    parseArguments op ⟨s ++ rest, pos⟩ = .ok (vs, ⟨rest, pos + s.length⟩) := by
  unfold parseArguments
  cases h with
  | one hop h =>
    rw [if_neg fun hlist => hop (takesList_iff.mpr hlist), parseValue_of_isValue h hrest]
  | @list s vs hop h =>
    have hskip : (⟨'(' :: (s ++ [')']) ++ rest, pos⟩ : Parser).skip 1 =
        ⟨s ++ ')' :: rest, pos + 1⟩ := by
      simp [skip]
    rw [if_pos (takesList_iff.mp hop), if_neg (by simp [peek]), hskip, parseValues_of_areValues h]
    refine congrArg (fun n => Except.ok (vs, Parser.mk rest n)) ?_
    simp only [List.length_cons, List.length_append, List.length_nil]
    omega

theorem isArguments_of_parseArguments {op : RsqlOp} {vs : List String}
    (h : parseArguments op p = .ok (vs, q)) : ∃ s, IsArguments op s vs ∧ p.Consumes s q := by
  unfold parseArguments at h
  split at h
  · rename_i hlist
    split at h
    · cases h
    · rename_i hpeek
      rw [not_not] at hpeek
      obtain ⟨s, hs, hconsumes⟩ := areValues_of_parseValues h
      exact ⟨_, .list (takesList_iff.mpr hlist) hs, (consumes_peek hpeek).trans hconsumes⟩
  · rename_i hlist
    split at h
    · cases h
    · rename_i v r hv
      cases h
      obtain ⟨s, hs, hconsumes⟩ := isValue_of_parseValue hv
      exact ⟨s, .one (fun hop => hlist (takesList_iff.mp hop)) hs, hconsumes⟩

variable {toLowercase : String → String}

/-- An operator is no character of a field. -/
theorem display_head (op : RsqlOp) (rest : List Char) :
    ∀ c ∈ (op.display.toList ++ rest).head?, isFieldChar c = false := by
  intro c hc
  have hhead : ∃ c, op.display.toList.head? = some c ∧ isFieldChar c = false := by
    cases op with
    | null b => exact ⟨'=', (by decide : "=null=".toList.head? = some '='), by decide⟩
    | neq => exact ⟨'!', rfl, by decide⟩
    | _ => exact ⟨'=', rfl, by decide⟩
  obtain ⟨b, hb, hfield⟩ := hhead
  rw [List.head?_append, hb] at hc
  cases hc
  exact hfield

/-- A leaf whose operator is not `=null=`. -/
theorem parseLeaf_arguments {field name : String} {op : RsqlOp} {values : List String}
    {q r s : Parser} (hf : parseSelector p = .ok (field, q))
    (ho : parseOperator q = .ok ((op, name), r)) (hname : name ≠ "null")
    (hv : parseArguments op r = .ok (values, s)) :
    ∃ x, parseLeaf toLowercase p = .ok x ∧ x.node = .leaf field op values ∧ x.next = s := by
  unfold parseLeaf
  split
  · rename_i e he
    rw [hf] at he
    cases he
  · rename_i field' q' he
    obtain ⟨rfl, rfl⟩ := Prod.mk.inj (Except.ok.inj (hf.symm.trans he))
    split
    · rename_i e he'
      rw [ho] at he'
      cases he'
    · rename_i op' name' r' he'
      obtain ⟨hop, rfl⟩ := Prod.mk.inj (Except.ok.inj (ho.symm.trans he'))
      obtain ⟨rfl, rfl⟩ := Prod.mk.inj hop
      rw [dif_neg hname]
      split
      · rename_i e hargs
        rw [hv] at hargs
        cases hargs
      · rename_i values' s' hargs
        obtain ⟨rfl, rfl⟩ := Prod.mk.inj (Except.ok.inj (hv.symm.trans hargs))
        exact ⟨_, rfl, rfl, rfl⟩

/-- A leaf whose operator is `=null=`. -/
theorem parseLeaf_null {field raw : String} {op : RsqlOp} {isNull : Bool} {q r s : Parser}
    (hf : parseSelector p = .ok (field, q)) (ho : parseOperator q = .ok ((op, "null"), r))
    (hv : parseValue r = .ok (raw, s)) (hraw : toLowercase raw = nullText isNull) :
    ∃ x, parseLeaf toLowercase p = .ok x ∧ x.node = .leaf field (.null isNull) [] ∧ x.next = s := by
  unfold parseLeaf
  split
  · rename_i e he
    rw [hf] at he
    cases he
  · rename_i field' q' he
    obtain ⟨rfl, rfl⟩ := Prod.mk.inj (Except.ok.inj (hf.symm.trans he))
    split
    · rename_i e he'
      rw [ho] at he'
      cases he'
    · rename_i op' name' r' he'
      obtain ⟨hop, rfl⟩ := Prod.mk.inj (Except.ok.inj (ho.symm.trans he'))
      obtain ⟨rfl, rfl⟩ := Prod.mk.inj hop
      rw [dif_pos rfl]
      split
      · rename_i e hvalue
        rw [hv] at hvalue
        cases hvalue
      · rename_i raw' s' hvalue
        obtain ⟨rfl, rfl⟩ := Prod.mk.inj (Except.ok.inj (hv.symm.trans hvalue))
        cases isNull with
        | true =>
          have htrue : toLowercase raw = "true" := hraw
          dsimp only
          rw [if_pos htrue]
          exact ⟨_, rfl, rfl, rfl⟩
        | false =>
          have hfalse : toLowercase raw = "false" := hraw
          have hne : ¬ toLowercase raw = "true" := by
            rw [hfalse]
            decide
          dsimp only
          rw [if_neg hne, if_pos hfalse]
          exact ⟨_, rfl, rfl, rfl⟩

/-- **A leaf is read** up to what ends it. -/
theorem parseLeaf_of_isLeaf {t : FilterNode} (h : IsLeaf toLowercase s t) (hrest : EndsValue rest) :
    ∃ r, parseLeaf toLowercase ⟨s ++ rest, pos⟩ = .ok r ∧ r.node = t ∧
      r.next = ⟨rest, pos + s.length⟩ := by
  have hread : ∀ (f a : List Char) (op : RsqlOp), IsField f →
      parseSelector ⟨f ++ (op.display.toList ++ a) ++ rest, pos⟩ =
          .ok (.ofList f, ⟨op.display.toList ++ (a ++ rest), pos + f.length⟩) ∧
        parseOperator ⟨op.display.toList ++ (a ++ rest), pos + f.length⟩ =
          .ok ((op.asRead, op.name), ⟨a ++ rest, pos + f.length + op.display.toList.length⟩) := by
    intro f a op hf
    refine ⟨?_, parseOperator_display op⟩
    rw [List.append_assoc, List.append_assoc]
    exact parseSelector_of_isField hf (display_head op _)
  have hnext : ∀ f d a : List Char, pos + f.length + d.length + a.length =
      pos + (f ++ (d ++ a)).length := by
    intro f d a
    rw [List.length_append, List.length_append]
    omega
  -- an operator that is not `=null=` is read with its name and its arguments
  have hargs : ∀ (f a : List Char) (op : RsqlOp) (vs : List String), IsField f → (∀ b, op ≠ .null b) →
      IsArguments op a vs → ∃ r, parseLeaf toLowercase ⟨f ++ (op.display.toList ++ a) ++ rest, pos⟩ =
        .ok r ∧ r.node = .leaf (.ofList f) op vs ∧
          r.next = ⟨rest, pos + (f ++ (op.display.toList ++ a)).length⟩ := by
    intro f a op vs hf hnull ha
    obtain ⟨hselector, hoperator⟩ := hread f a op hf
    have hsame : op.asRead = op := by
      cases op with
      | null b => exact absurd rfl (hnull b)
      | _ => rfl
    have hname : op.name ≠ "null" := by
      cases op with
      | null b => exact absurd rfl (hnull b)
      | _ => decide
    rw [hsame] at hoperator
    rw [← hnext]
    exact parseLeaf_arguments hselector hoperator hname (parseArguments_of_isArguments ha hrest)
  cases h with
  | @scalar f s op v hf hop hv =>
    refine hargs f s op [v] hf ?_ (.one ?_ hv)
    · rintro b rfl
      exact hop
    · intro hlist
      rcases takesList_iff.mp hlist with rfl | rfl | rfl <;> exact hop
  | @list f s op vs hf hop hvs =>
    refine hargs f _ op vs hf ?_ (.list hop hvs)
    rintro b rfl
    exact hop
  | @null f s raw isNull hf hv hraw =>
    obtain ⟨hselector, hoperator⟩ := hread f s (.null isNull) hf
    rw [← hnext]
    exact parseLeaf_null hselector hoperator (parseValue_of_isValue hv hrest) hraw

/-- **What is read as a leaf is one.** -/
theorem isLeaf_of_parseLeaf {r : Parsed p} (h : parseLeaf toLowercase p = .ok r) :
    ∃ s, IsLeaf toLowercase s r.node ∧ p.Consumes s r.next := by
  unfold parseLeaf at h
  split at h
  · cases h
  · rename_i field q hf
    obtain ⟨f, hfield, rfl, hcf⟩ := isField_of_parseSelector hf
    split at h
    · cases h
    · rename_i op name q' ho
      obtain ⟨hco, hname⟩ := consumes_parseOperator ho
      have hnull := (parseOperator_ok ho).1
      dsimp only at h
      split at h
      · rename_i hisnull
        -- the operator is `=null=`, whichever flag it was read with
        have hdisplay : ∀ b, op.display = (RsqlOp.null b).display := by
          intro b
          cases op with
          | null _ => rfl
          | _ => exact absurd (hname.symm.trans hisnull) (by decide)
        split at h
        · cases h
        · rename_i raw q'' hv
          obtain ⟨s, hs, hcs⟩ := isValue_of_parseValue hv
          split at h
          · rename_i htrue
            cases h
            exact ⟨_, .null true hfield hs htrue, hcf.trans ((hdisplay true ▸ hco).trans hcs)⟩
          · split at h
            · rename_i hfalse
              cases h
              exact ⟨_, .null false hfield hs hfalse,
                hcf.trans ((hdisplay false ▸ hco).trans hcs)⟩
            · cases h
      · rename_i hnotnull
        split at h
        · cases h
        · rename_i values q'' hv
          obtain ⟨s, hs, hcs⟩ := isArguments_of_parseArguments hv
          cases h
          have hconsumes := hcf.trans (hco.trans hcs)
          cases hs with
          | one hop hs =>
            refine ⟨_, .scalar hfield ?_ hs, hconsumes⟩
            cases op with
            | null b => exact absurd rfl (hnull hnotnull b)
            | inList => exact absurd trivial hop
            | out => exact absurd trivial hop
            | between => exact absurd trivial hop
            | _ => trivial
          | list hop hs => exact ⟨_, .list hfield hop hs, hconsumes⟩

end Leaves

/-! ### Steps of the parser -/

section Steps

variable {toLowercase : String → String} {p q : Parser}

/-- A group in parentheses. -/
theorem parseAtom_group (hopen : p.peek = some '(') {r : Parsed (p.skip 1)}
    (h : parseOr toLowercase (p.skip 1) = .ok r) (hclose : r.next.peek = some ')') :
    ∃ x, parseAtom toLowercase p = .ok x ∧ x.node = r.node ∧ x.next = r.next.skip 1 := by
  rw [parseAtom, dif_pos hopen, h]
  dsimp only
  rw [if_pos hclose]
  exact ⟨_, rfl, rfl, rfl⟩

theorem parseAtom_leaf (hopen : p.peek ≠ some '(') :
    parseAtom toLowercase p = parseLeaf toLowercase p := by
  rw [parseAtom, dif_neg hopen]

theorem parseAtom_ok {x : Parsed p} (h : parseAtom toLowercase p = .ok x)
    (hopen : p.peek = some '(') :
    ∃ r, parseOr toLowercase (p.skip 1) = .ok r ∧ r.next.peek = some ')' ∧ x.node = r.node ∧
      x.next = r.next.skip 1 := by
  rw [parseAtom, dif_pos hopen] at h
  split at h
  · cases h
  · rename_i r hr
    split at h
    · rename_i hclose
      cases h
      exact ⟨r, hr, hclose, rfl, rfl⟩
    · cases h

/-- The atoms of an `and`. -/
theorem parseAnd_eq_ok {t : FilterNode} :
    (∃ x, parseAnd toLowercase p = .ok x ∧ x.node = t ∧ x.next = q) ↔
      ∃ r rs, parseAtom toLowercase p = .ok r ∧ parseAndRest toLowercase r.next = .ok rs ∧
        t = collapse .and (r.node :: rs.nodes) ∧ q = rs.next := by
  rw [parseAnd]
  constructor
  · rintro ⟨x, hx, rfl, rfl⟩
    split at hx
    · cases hx
    · rename_i r hr
      split at hx
      · cases hx
      · rename_i q' hw hq hrs
        cases hx
        exact ⟨r, _, hr, hrs, rfl, rfl⟩
      · rename_i b bs q' hw hq hrs
        cases hx
        exact ⟨r, _, hr, hrs, rfl, rfl⟩
  · rintro ⟨r, ⟨nodes, next, hw, hq⟩, hr, hrs, rfl, rfl⟩
    rw [hr]
    dsimp only
    rw [hrs]
    cases nodes with
    | nil => exact ⟨_, rfl, rfl, rfl⟩
    | cons b bs => exact ⟨_, rfl, rfl, rfl⟩

/-- The members of an `or`. -/
theorem parseOr_eq_ok {t : FilterNode} :
    (∃ x, parseOr toLowercase p = .ok x ∧ x.node = t ∧ x.next = q) ↔
      ∃ r rs, parseAnd toLowercase p = .ok r ∧ parseOrRest toLowercase r.next = .ok rs ∧
        t = collapse .or (r.node :: rs.nodes) ∧ q = rs.next := by
  rw [parseOr]
  constructor
  · rintro ⟨x, hx, rfl, rfl⟩
    split at hx
    · cases hx
    · rename_i r hr
      split at hx
      · cases hx
      · rename_i q' hw hq hrs
        cases hx
        exact ⟨r, _, hr, hrs, rfl, rfl⟩
      · rename_i b bs q' hw hq hrs
        cases hx
        exact ⟨r, _, hr, hrs, rfl, rfl⟩
  · rintro ⟨r, ⟨nodes, next, hw, hq⟩, hr, hrs, rfl, rfl⟩
    rw [hr]
    dsimp only
    rw [hrs]
    cases nodes with
    | nil => exact ⟨_, rfl, rfl, rfl⟩
    | cons b bs => exact ⟨_, rfl, rfl, rfl⟩

/-- The rest of an `and`: nothing, or a semicolon and more atoms. -/
theorem parseAndRest_eq_ok {ts : List FilterNode} :
    (∃ x, parseAndRest toLowercase p = .ok x ∧ x.nodes = ts ∧ x.next = q) ↔
      (p.peek ≠ some ';' ∧ ts = [] ∧ q = p) ∨
        (p.peek = some ';' ∧ ∃ r rs, parseAtom toLowercase (p.skip 1) = .ok r ∧
          parseAndRest toLowercase r.next = .ok rs ∧ ts = r.node :: rs.nodes ∧ q = rs.next) := by
  rw [parseAndRest]
  by_cases hc : p.peek = some ';'
  · rw [dif_pos hc]
    constructor
    · rintro ⟨x, hx, rfl, rfl⟩
      split at hx
      · cases hx
      · rename_i r hr
        split at hx
        · cases hx
        · rename_i rs hrs
          cases hx
          exact .inr ⟨hc, r, rs, hr, hrs, rfl, rfl⟩
    · rintro (⟨hne, -, -⟩ | ⟨-, r, rs, hr, hrs, rfl, rfl⟩)
      · exact absurd hc hne
      · rw [hr]
        dsimp only
        rw [hrs]
        exact ⟨_, rfl, rfl, rfl⟩
  · rw [dif_neg hc]
    constructor
    · rintro ⟨x, hx, rfl, rfl⟩
      cases hx
      exact .inl ⟨hc, rfl, rfl⟩
    · rintro (⟨-, rfl, rfl⟩ | ⟨heq, -⟩)
      · exact ⟨_, rfl, rfl, rfl⟩
      · exact absurd heq hc

/-- The rest of an `or`: nothing, or a comma and more members. -/
theorem parseOrRest_eq_ok {ts : List FilterNode} :
    (∃ x, parseOrRest toLowercase p = .ok x ∧ x.nodes = ts ∧ x.next = q) ↔
      (p.peek ≠ some ',' ∧ ts = [] ∧ q = p) ∨
        (p.peek = some ',' ∧ ∃ r rs, parseAnd toLowercase (p.skip 1) = .ok r ∧
          parseOrRest toLowercase r.next = .ok rs ∧ ts = r.node :: rs.nodes ∧ q = rs.next) := by
  rw [parseOrRest]
  by_cases hc : p.peek = some ','
  · rw [dif_pos hc]
    constructor
    · rintro ⟨x, hx, rfl, rfl⟩
      split at hx
      · cases hx
      · rename_i r hr
        split at hx
        · cases hx
        · rename_i rs hrs
          cases hx
          exact .inr ⟨hc, r, rs, hr, hrs, rfl, rfl⟩
    · rintro (⟨hne, -, -⟩ | ⟨-, r, rs, hr, hrs, rfl, rfl⟩)
      · exact absurd hc hne
      · rw [hr]
        dsimp only
        rw [hrs]
        exact ⟨_, rfl, rfl, rfl⟩
  · rw [dif_neg hc]
    constructor
    · rintro ⟨x, hx, rfl, rfl⟩
      cases hx
      exact .inl ⟨hc, rfl, rfl⟩
    · rintro (⟨-, rfl, rfl⟩ | ⟨heq, -⟩)
      · exact ⟨_, rfl, rfl, rfl⟩
      · exact absurd heq hc

end Steps

/-! ### What is parsed is derivable -/

section Sound

variable (toLowercase : String → String)

/-- What an atom at a position is. -/
def SoundAtom (p : Parser) : Prop := ∀ x, parseAtom toLowercase p = .ok x →
  ∃ s, Derives toLowercase .atom s [x.node] ∧ p.Consumes s x.next

/-- What an `and` at a position is. -/
def SoundAnd (p : Parser) : Prop := ∀ x, parseAnd toLowercase p = .ok x →
  ∃ s ts, Derives toLowercase .and s ts ∧ x.node = collapse .and ts ∧ p.Consumes s x.next

/-- What an `or` at a position is. -/
def SoundOr (p : Parser) : Prop := ∀ x, parseOr toLowercase p = .ok x →
  ∃ s ts, Derives toLowercase .or s ts ∧ x.node = collapse .or ts ∧ p.Consumes s x.next

variable {toLowercase} {p : Parser}

theorem soundAtom (hor : ∀ q : Parser, p.Past q → SoundOr toLowercase q) : SoundAtom toLowercase p := by
  intro x hx
  by_cases hopen : p.peek = some '('
  · obtain ⟨r, hr, hclose, hnode, hnext⟩ := parseAtom_ok hx hopen
    obtain ⟨s, ts, hs, hts, hconsumes⟩ := hor _ (past_skip (rest_ne_nil hopen) Nat.one_pos) r hr
    rw [hnode, hts, hnext]
    exact ⟨_, .group hs, (consumes_peek hopen).trans (hconsumes.trans (consumes_peek hclose))⟩
  · rw [parseAtom_leaf hopen] at hx
    obtain ⟨s, hs, hconsumes⟩ := isLeaf_of_parseLeaf hx
    exact ⟨s, .leaf hs, hconsumes⟩

/-- The rest of an `and`, when its atoms are sound. -/
theorem soundAndRest (n : Nat) (hatom : ∀ q : Parser, q.rest.length ≤ n → SoundAtom toLowercase q)
    (hp : p.rest.length ≤ n) {x : Parts p} (hx : parseAndRest toLowercase p = .ok x) :
    (x.nodes = [] ∧ x.next = p) ∨
      ∃ s, Derives toLowercase .and s x.nodes ∧ p.Consumes (';' :: s) x.next := by
  induction hlength : p.rest.length using Nat.strong_induction_on generalizing p with
  | h m ih =>
    rcases parseAndRest_eq_ok.mp ⟨x, hx, rfl, rfl⟩ with
      ⟨-, hnodes, hnext⟩ | ⟨hsep, r, rs, hr, hrs, hnodes, hnext⟩
    · exact .inl ⟨hnodes, hnext⟩
    · have hpast : p.Past (p.skip 1) := past_skip (rest_ne_nil hsep) Nat.one_pos
      have hfurther : p.Past r.next := hpast.trans_from r.past.from
      unfold Past at hpast hfurther
      obtain ⟨s, hs, hconsumes⟩ := hatom (p.skip 1) (by omega) r hr
      have hstart := (consumes_peek hsep).trans hconsumes
      rw [hnodes, hnext]
      refine .inr ?_
      rcases ih _ (by omega) (by omega) hrs rfl with ⟨hnone, hend⟩ | ⟨s', hs', hconsumes'⟩
      · rw [hnone, hend]
        exact ⟨s, .andOne hs, hstart⟩
      · exact ⟨_, .andCons hs hs', hstart.trans hconsumes'⟩

theorem soundAnd (hatom : ∀ q : Parser, p.From q → SoundAtom toLowercase q) :
    SoundAnd toLowercase p := by
  intro x hx
  obtain ⟨r, rs, hr, hrs, hnode, hnext⟩ := parseAnd_eq_ok.mp ⟨x, hx, rfl, rfl⟩
  obtain ⟨s, hs, hconsumes⟩ := hatom p (.refl p) r hr
  rw [hnode, hnext]
  rcases soundAndRest p.rest.length (fun q hq => hatom q hq) r.past.from hrs with
    ⟨hnone, hend⟩ | ⟨s', hs', hconsumes'⟩
  · rw [hnone, hend]
    exact ⟨s, _, .andOne hs, rfl, hconsumes⟩
  · exact ⟨_, _, .andCons hs hs', rfl, hconsumes.trans hconsumes'⟩

/-- The rest of an `or`, when its members are sound. -/
theorem soundOrRest (n : Nat) (hand : ∀ q : Parser, q.rest.length ≤ n → SoundAnd toLowercase q)
    (hp : p.rest.length ≤ n) {x : Parts p} (hx : parseOrRest toLowercase p = .ok x) :
    (x.nodes = [] ∧ x.next = p) ∨
      ∃ s, Derives toLowercase .or s x.nodes ∧ p.Consumes (',' :: s) x.next := by
  induction hlength : p.rest.length using Nat.strong_induction_on generalizing p with
  | h m ih =>
    rcases parseOrRest_eq_ok.mp ⟨x, hx, rfl, rfl⟩ with
      ⟨-, hnodes, hnext⟩ | ⟨hsep, r, rs, hr, hrs, hnodes, hnext⟩
    · exact .inl ⟨hnodes, hnext⟩
    · have hpast : p.Past (p.skip 1) := past_skip (rest_ne_nil hsep) Nat.one_pos
      have hfurther : p.Past r.next := hpast.trans_from r.past.from
      unfold Past at hpast hfurther
      obtain ⟨s, ts, hs, hts, hconsumes⟩ := hand (p.skip 1) (by omega) r hr
      have hstart := (consumes_peek hsep).trans hconsumes
      rw [hnodes, hnext, hts]
      refine .inr ?_
      rcases ih _ (by omega) (by omega) hrs rfl with ⟨hnone, hend⟩ | ⟨s', hs', hconsumes'⟩
      · rw [hnone, hend]
        exact ⟨s, .orOne hs, hstart⟩
      · exact ⟨_, .orCons hs hs', hstart.trans hconsumes'⟩

theorem soundOr (hand : ∀ q : Parser, p.From q → SoundAnd toLowercase q) :
    SoundOr toLowercase p := by
  intro x hx
  obtain ⟨r, rs, hr, hrs, hnode, hnext⟩ := parseOr_eq_ok.mp ⟨x, hx, rfl, rfl⟩
  obtain ⟨s, ts, hs, hts, hconsumes⟩ := hand p (.refl p) r hr
  rw [hnode, hnext, hts]
  rcases soundOrRest p.rest.length (fun q hq => hand q hq) r.past.from hrs with
    ⟨hnone, hend⟩ | ⟨s', hs', hconsumes'⟩
  · rw [hnone, hend]
    exact ⟨s, _, .orOne hs, rfl, hconsumes⟩
  · exact ⟨_, _, .orCons hs hs', rfl, hconsumes.trans hconsumes'⟩

/-- **What is parsed is derivable.** -/
theorem derives_of_parseOr (p : Parser) : SoundOr toLowercase p := by
  induction hlength : p.rest.length using Nat.strong_induction_on generalizing p with
  | h n ih =>
    refine soundOr fun q hq => soundAnd fun q' hq' => soundAtom fun q'' hq'' => ?_
    -- inside parentheses the text is shorter
    have hpast : p.Past q'' := (hq.trans hq').trans_past hq''
    unfold Past at hpast
    exact ih _ (by omega) q'' rfl

end Sound

/-! ### What is derivable is parsed -/

section Complete

variable (toLowercase : String → String)

/-- An atom is read at a position, up to another one. -/
def ReadsAtom (p : Parser) (t : FilterNode) (q : Parser) : Prop :=
  ∃ x, parseAtom toLowercase p = .ok x ∧ x.node = t ∧ x.next = q

def ReadsAndRest (p : Parser) (ts : List FilterNode) (q : Parser) : Prop :=
  ∃ x, parseAndRest toLowercase p = .ok x ∧ x.nodes = ts ∧ x.next = q

def ReadsAnd (p : Parser) (t : FilterNode) (q : Parser) : Prop :=
  ∃ x, parseAnd toLowercase p = .ok x ∧ x.node = t ∧ x.next = q

def ReadsOrRest (p : Parser) (ts : List FilterNode) (q : Parser) : Prop :=
  ∃ x, parseOrRest toLowercase p = .ok x ∧ x.nodes = ts ∧ x.next = q

def ReadsOr (p : Parser) (t : FilterNode) (q : Parser) : Prop :=
  ∃ x, parseOr toLowercase p = .ok x ∧ x.node = t ∧ x.next = q

variable {toLowercase} {p q r : Parser} {t : FilterNode} {ts : List FilterNode}

theorem ReadsAtom.and (h : ReadsAtom toLowercase p t q) (hs : ReadsAndRest toLowercase q ts r) :
    ReadsAnd toLowercase p (collapse .and (t :: ts)) r := by
  obtain ⟨x, hx, rfl, rfl⟩ := h
  obtain ⟨xs, hxs, rfl, rfl⟩ := hs
  exact parseAnd_eq_ok.mpr ⟨x, xs, hx, hxs, rfl, rfl⟩

theorem ReadsAtom.andRest (hsep : p.peek = some ';') (h : ReadsAtom toLowercase (p.skip 1) t q)
    (hs : ReadsAndRest toLowercase q ts r) : ReadsAndRest toLowercase p (t :: ts) r := by
  obtain ⟨x, hx, rfl, rfl⟩ := h
  obtain ⟨xs, hxs, rfl, rfl⟩ := hs
  exact parseAndRest_eq_ok.mpr (.inr ⟨hsep, x, xs, hx, hxs, rfl, rfl⟩)

theorem readsAndRest_end (hsep : p.peek ≠ some ';') : ReadsAndRest toLowercase p [] p :=
  parseAndRest_eq_ok.mpr (.inl ⟨hsep, rfl, rfl⟩)

theorem ReadsAnd.or (h : ReadsAnd toLowercase p t q) (hs : ReadsOrRest toLowercase q ts r) :
    ReadsOr toLowercase p (collapse .or (t :: ts)) r := by
  obtain ⟨x, hx, rfl, rfl⟩ := h
  obtain ⟨xs, hxs, rfl, rfl⟩ := hs
  exact parseOr_eq_ok.mpr ⟨x, xs, hx, hxs, rfl, rfl⟩

theorem ReadsAnd.orRest (hsep : p.peek = some ',') (h : ReadsAnd toLowercase (p.skip 1) t q)
    (hs : ReadsOrRest toLowercase q ts r) : ReadsOrRest toLowercase p (t :: ts) r := by
  obtain ⟨x, hx, rfl, rfl⟩ := h
  obtain ⟨xs, hxs, rfl, rfl⟩ := hs
  exact parseOrRest_eq_ok.mpr (.inr ⟨hsep, x, xs, hx, hxs, rfl, rfl⟩)

theorem readsOrRest_end (hsep : p.peek ≠ some ',') : ReadsOrRest toLowercase p [] p :=
  parseOrRest_eq_ok.mpr (.inl ⟨hsep, rfl, rfl⟩)

theorem ReadsOr.group (hopen : p.peek = some '(') (h : ReadsOr toLowercase (p.skip 1) t q)
    (hclose : q.peek = some ')') : ReadsAtom toLowercase p t (q.skip 1) := by
  obtain ⟨x, hx, rfl, rfl⟩ := h
  exact parseAtom_group hopen hx hclose

variable {s rest : List Char} {pos : Nat}

/-- What may follow a text of the grammar. -/
def Ends : Rule → List Char → Prop
  | .atom, rest => ∀ c ∈ rest.head?, c = ';' ∨ c = ',' ∨ c = ')'
  | .and, rest => ∀ c ∈ rest.head?, c = ',' ∨ c = ')'
  | .or, rest => ∀ c ∈ rest.head?, c = ')'

variable (toLowercase) in
/-- A text is parsed with its trees, up to what follows it. -/
def Parses : Rule → List Char → List FilterNode → Prop
  | .atom, s, ts => ∀ rest pos, Ends .atom rest → ∃ t, ts = [t] ∧
      ReadsAtom toLowercase ⟨s ++ rest, pos⟩ t ⟨rest, pos + s.length⟩
  | .and, s, ts => ∀ rest pos, Ends .and rest → ∃ t us q, ts = t :: us ∧
      ReadsAtom toLowercase ⟨s ++ rest, pos⟩ t q ∧
        ReadsAndRest toLowercase q us ⟨rest, pos + s.length⟩
  | .or, s, ts => ∀ rest pos, Ends .or rest → ∃ t us q, ts = t :: us ∧
      ReadsAnd toLowercase ⟨s ++ rest, pos⟩ t q ∧
        ReadsOrRest toLowercase q us ⟨rest, pos + s.length⟩

theorem ends_cons {rule : Rule} {c : Char} (h : Ends rule [c]) (l : List Char) : Ends rule (c :: l) := by
  cases rule <;> exact h

theorem Ends.value (h : Ends .atom rest) : EndsValue rest := by
  intro c hc
  rcases h c hc with rfl | rfl | rfl <;> decide

theorem Ends.atom (h : Ends .and rest) : Ends .atom rest := fun c hc => .inr (h c hc)

theorem Ends.and (h : Ends .or rest) : Ends .and rest := fun c hc => .inr (h c hc)

theorem Ends.not_semicolon (h : Ends .and rest) : (⟨rest, pos⟩ : Parser).peek ≠ some ';' := by
  intro hpeek
  rcases h ';' hpeek with hc | hc <;> exact absurd hc (by decide)

theorem Ends.not_comma (h : Ends .or rest) : (⟨rest, pos⟩ : Parser).peek ≠ some ',' := by
  intro hpeek
  exact absurd (h ',' hpeek) (by decide)

/-- A leaf does not begin with a parenthesis. -/
theorem IsLeaf.peek (h : IsLeaf toLowercase s t) : (⟨s ++ rest, pos⟩ : Parser).peek ≠ some '(' := by
  have hfield : ∀ f l : List Char, IsField f →
      (⟨f ++ l ++ rest, pos⟩ : Parser).peek ≠ some '(' := by
    intro f l hf hpeek
    obtain ⟨c, f', rfl⟩ := List.exists_cons_of_ne_nil hf.1
    obtain rfl : c = '(' := Option.some.inj hpeek
    exact absurd (hf.2 '(' List.mem_cons_self) (by decide)
  cases h with
  | scalar hf => exact hfield _ _ hf
  | list hf => exact hfield _ _ hf
  | null _ hf => exact hfield _ _ hf

/-- The position after a text, a character and a text. -/
theorem pos_append_cons (pos : Nat) (s s' : List Char) (c : Char) :
    pos + s.length + 1 + s'.length = pos + (s ++ c :: s').length := by
  rw [List.length_append, List.length_cons]
  omega

/-- **What is derivable is parsed.** -/
theorem parses_of_derives {rule : Rule} (h : Derives toLowercase rule s ts) :
    Parses toLowercase rule s ts := by
  induction h with
  | leaf h =>
    intro rest pos hrest
    obtain ⟨r, hr, hnode, hnext⟩ := @parseLeaf_of_isLeaf _ rest pos _ _ h hrest.value
    rw [← parseAtom_leaf h.peek] at hr
    exact ⟨_, rfl, r, hr, hnode, hnext⟩
  | @group s ts h ih =>
    intro rest pos hrest
    -- What follows a group begins with its closing parenthesis.
    have hclosed : Ends .or (')' :: rest) := ends_cons (by simp [Ends]) rest
    obtain ⟨t, us, q, rfl, ht, hus⟩ := ih (')' :: rest) (pos + 1) hclosed
    have hskip : (⟨'(' :: (s ++ [')']) ++ rest, pos⟩ : Parser).skip 1 = ⟨s ++ ')' :: rest, pos + 1⟩ := by
      simp [skip]
    have hor := ht.or hus
    rw [← hskip] at hor
    have hatom := hor.group rfl rfl
    have hend : (⟨')' :: rest, pos + 1 + s.length⟩ : Parser).skip 1 =
        ⟨rest, pos + ('(' :: (s ++ [')'])).length⟩ := by
      simp [skip]
      omega
    rw [hend] at hatom
    exact ⟨_, rfl, hatom⟩
  | andOne h ih =>
    intro rest pos hrest
    obtain ⟨t, hts, ht⟩ := ih rest pos hrest.atom
    exact ⟨t, [], _, hts, ht, readsAndRest_end hrest.not_semicolon⟩
  | @andCons s s' t ts h hs ih ihs =>
    intro rest pos hrest
    obtain ⟨t', ht', ht⟩ := ih (';' :: (s' ++ rest)) pos (ends_cons (by simp [Ends]) _)
    obtain ⟨u, us, q, rfl, hu, hus⟩ := ihs rest (pos + s.length + 1) hrest
    rw [pos_append_cons pos s s' ';'] at hus
    rw [List.append_assoc, List.cons_append]
    obtain ⟨rfl, -⟩ := List.cons.inj ht'
    exact ⟨t, u :: us, _, rfl, ht, hu.andRest rfl hus⟩
  -- A conjunction is followed by nothing that continues it.
  | orOne h ih =>
    intro rest pos hrest
    obtain ⟨t, us, q, rfl, ht, hus⟩ := ih rest pos hrest.and
    exact ⟨_, [], _, rfl, ht.and hus, readsOrRest_end hrest.not_comma⟩
  | @orCons s s' ts ts' h hs ih ihs =>
    intro rest pos hrest
    obtain ⟨t, us, q, rfl, ht, hus⟩ := ih (',' :: (s' ++ rest)) pos (ends_cons (by simp [Ends]) _)
    obtain ⟨u, us', q', rfl, hu, hus'⟩ := ihs rest (pos + s.length + 1) hrest
    rw [pos_append_cons pos s s' ','] at hus'
    rw [List.append_assoc, List.cons_append]
    exact ⟨_, u :: us', _, rfl, ht.and hus, hu.orRest rfl hus'⟩

/-- **The parser accepts the grammar, with its trees.** -/
theorem parseOr_iff_isFilter {l : List Char} {n : Nat} :
    ReadsOr toLowercase ⟨l, n⟩ t ⟨[], n + l.length⟩ ↔ IsFilter toLowercase l t := by
  constructor
  · rintro ⟨x, hx, rfl, hnext⟩
    obtain ⟨s, ts, hs, hts, hconsumes, -⟩ := derives_of_parseOr ⟨l, n⟩ x hx
    rw [hnext, List.append_nil] at hconsumes
    change l = s at hconsumes
    subst hconsumes
    exact ⟨ts, hs, hts⟩
  · rintro ⟨ts, hs, rfl⟩
    obtain ⟨t, us, q, rfl, ht, hus⟩ := parses_of_derives hs [] n (by simp [Ends])
    rw [List.append_nil] at ht
    exact ht.or hus

/-- A text has one tree. -/
theorem IsFilter.unique {t' : FilterNode} (h : IsFilter toLowercase s t)
    (h' : IsFilter toLowercase s t') : t = t' := by
  obtain ⟨x, hx, hnode, -⟩ := (@parseOr_iff_isFilter toLowercase t s 0).mpr h
  obtain ⟨y, hy, hnode', -⟩ := (@parseOr_iff_isFilter toLowercase t' s 0).mpr h'
  obtain rfl : x = y := Except.ok.inj (hx.symm.trans hy)
  exact hnode.symm.trans hnode'

/-- **`parse_rsql` accepts the grammar, with its trees.** -/
theorem parseRsql_eq_ok {input : String} :
    parseRsql toLowercase input = .ok t ↔
      trim input ≠ "" ∧ IsFilter toLowercase (trim input).toList t := by
  rw [← @parseOr_iff_isFilter toLowercase t (trim input).toList 0]
  unfold parseRsql ReadsOr
  dsimp only
  constructor
  · intro h
    split at h
    · cases h
    · rename_i hne
      split at h
      · cases h
      · rename_i x hx
        split at h
        · rename_i hend
          obtain ⟨s, ts, -, -, hconsumes, hpos⟩ := derives_of_parseOr _ x hx
          refine ⟨hne, x, hx, Except.ok.inj h, ?_⟩
          rw [hend, List.append_nil] at hconsumes
          change (trim input).toList = s at hconsumes
          rw [← hconsumes] at hpos
          exact Parser.eq_mk hend hpos
        · cases h
  · rintro ⟨hne, x, hx, rfl, hnext⟩
    rw [if_neg hne, hx]
    dsimp only
    rw [hnext, if_pos rfl]

end Complete

end Authrs.Query
