import Authrs.SqlText.Lexer
import Mathlib.Data.List.Forall2

/-!
# Parsing a condition

The grammar of conditions, with the precedence of SQL: comparisons bind more tightly than `AND`,
and `AND` more tightly than `OR`; the `AND` of a `BETWEEN` belongs to it. The operators `AND` and
`OR` are associative, and are read from the right.

## Main definitions

* `parseOr`, `parseAnd`, `parseAtom`: the parser
* `condition`: the condition that a text means
* `Denotes text ps e`: wherever it stands as an operand of `AND` or `OR`, the text means `e` and
  has the placeholders `ps`

## Main results

* `Denotes.pred`: the text of a single condition
* `Denotes.all`, `Denotes.any`: parenthesized conjunctions and disjunctions
* `condition_join`: the meaning of a conjunction at the top of a text
-/

namespace SqlText

/-! ### The parser -/

def typeNamed (w : String) : Option TypeName :=
  [.bigint, .boolean, .uuid, .date, .timestamptz, .time].find? fun t => t.words = [w]

def parseCast : List Token → Option (Option TypeName × List Token)
  | .cast :: .word "double" :: .word "precision" :: ts => some (some .doublePrecision, ts)
  | .cast :: .word w :: ts => (typeNamed w).map fun t => (some t, ts)
  | .cast :: _ => none
  | ts => some (none, ts)

def parseOperand : List Token → Option (Operand × List Token)
  | .word w :: ts => if h : isColumnName w = true then some (.column ⟨w, h⟩, ts) else none
  | .param n :: ts => (parseCast ts).map fun p => (.param n p.1, p.2)
  | .literal s :: ts => if h : '\'' ∉ s.toList then some (.literal ⟨s, h⟩, ts) else none
  | _ => none

/-- The items of an `IN` list, up to its closing parenthesis. -/
def parseItems : Nat → List Token → Option (List Operand × List Token)
  | 0, _ => none
  | n + 1, ts =>
    match parseOperand ts with
    | some (a, .comma :: ts) => (parseItems n ts).map fun p => (a :: p.1, p.2)
    | some (a, .rparen :: ts) => some ([a], ts)
    | _ => none

/-- What follows the first operand of a condition. -/
def parseTest (a : Operand) : List Token → Option (Predicate × List Token)
  | .op o :: ts => (parseOperand ts).map fun p => (.compare o a p.1, p.2)
  | .word "LIKE" :: ts => (parseOperand ts).map fun p => (.like false a p.1, p.2)
  | .word "ILIKE" :: ts => (parseOperand ts).map fun p => (.like true a p.1, p.2)
  | .word "IS" :: .word "NULL" :: ts => some (.isNull false a, ts)
  | .word "IS" :: .word "NOT" :: .word "NULL" :: ts => some (.isNull true a, ts)
  | .word "IN" :: .lparen :: ts =>
    (parseItems ts.length ts).map fun p => (.inList false a p.1, p.2)
  | .word "NOT" :: .word "IN" :: .lparen :: ts =>
    (parseItems ts.length ts).map fun p => (.inList true a p.1, p.2)
  | .word "BETWEEN" :: ts =>
    match parseOperand ts with
    | some (lo, .word "AND" :: ts) =>
      (parseOperand ts).map fun p => (.between a lo p.1, p.2)
    | _ => none
  | _ => none

def parsePredicate (ts : List Token) : Option (Predicate × List Token) := do
  let p ← parseOperand ts
  parseTest p.1 p.2

mutual

def parseOr : Nat → List Token → Option (Expr × List Token)
  | 0, _ => none
  | n + 1, ts =>
    match parseAnd n ts with
    | some (a, .word "OR" :: ts) => (parseOr n ts).map fun p => (.or a p.1, p.2)
    | r => r

def parseAnd : Nat → List Token → Option (Expr × List Token)
  | 0, _ => none
  | n + 1, ts =>
    match parseAtom n ts with
    | some (a, .word "AND" :: ts) => (parseAnd n ts).map fun p => (.and a p.1, p.2)
    | r => r

def parseAtom : Nat → List Token → Option (Expr × List Token)
  | 0, _ => none
  | n + 1, .lparen :: ts =>
    match parseOr n ts with
    | some (e, .rparen :: ts) => some (e, ts)
    | _ => none
  | _ + 1, ts => (parsePredicate ts).map fun p => (.pred p.1, p.2)

end

/-- **The condition that a text means.** No nesting uses up the steps given here. -/
def condition (text : String) : Option Expr := do
  let ts ← lex text
  match parseOr (3 * ts.length + 2) ts with
  | some (e, []) => some e
  | _ => none

/-! ### Single conditions -/

/-- The text and the tokens of an operand. -/
def Operand.text : Operand → String
  | column c => c.text
  | param n none => "$" ++ toString n
  | param n (some t) => "$" ++ toString n ++ "::" ++ t.text
  | literal l => "'" ++ l.text ++ "'"

def Operand.tokens : Operand → List Token
  | column c => [.word c.text]
  | param n none => [.param n]
  | param n (some t) => .param n :: .cast :: t.words.map .word
  | literal l => [.literal l.text]

theorem Operand.reads (a : Operand) : Reads a.text a.tokens := by
  cases a with
  | column c =>
    have hword : isWord c.text = true := (Bool.and_eq_true _ _ ▸ c.valid : _ ∧ _).1
    exact Reads.word hword
  | param n cast =>
    cases cast with
    | none => exact Reads.param n
    | some t =>
      cases t with
      | doublePrecision =>
        exact Reads.cast n ((Reads.word (w := "double") (by decide)).space
          (Reads.word (w := "precision") (by decide)))
      | _ => exact Reads.cast n (Reads.word (by decide))
  | literal l => exact Reads.literal l

/-- What may follow an operand of `AND` or `OR`. -/
def AtomStop (rest : List Token) : Prop :=
  ∀ t ∈ rest.head?, t = .rparen ∨ t = .word "AND" ∨ t = .word "OR"

theorem Operand.parse (a : Operand) {rest : List Token} (h : ∀ t ∈ rest.head?, t ≠ .cast) :
    parseOperand (a.tokens ++ rest) = some (a, rest) := by
  have hnone : parseCast rest = some (none, rest) := by
    cases rest with
    | nil => rfl
    | cons t ts =>
      cases t with
      | cast => exact absurd rfl (h .cast rfl)
      | _ => rfl
  cases a with
  | column c => exact dif_pos c.valid
  | param n cast =>
    cases cast with
    | none =>
      change (parseCast rest).map _ = _
      rw [hnone]
      rfl
    | some t => cases t <;> rfl
  | literal l => exact dif_pos l.valid

/-- The text and the tokens of a condition. -/
def Predicate.text : Predicate → String
  | compare o a b => a.text ++ " " ++ o.text ++ " " ++ b.text
  | like false a b => a.text ++ " " ++ "LIKE" ++ " " ++ b.text
  | like true a b => a.text ++ " " ++ "ILIKE" ++ " " ++ b.text
  | isNull false a => a.text ++ " " ++ "IS" ++ " " ++ "NULL"
  | isNull true a => a.text ++ " " ++ "IS" ++ " " ++ "NOT" ++ " " ++ "NULL"
  | inList false a items =>
    a.text ++ " " ++ "IN" ++ " " ++ ("(" ++ join ", " (items.map (·.text)) ++ ")")
  | inList true a items =>
    a.text ++ " " ++ "NOT" ++ " " ++ "IN" ++ " " ++
      ("(" ++ join ", " (items.map (·.text)) ++ ")")
  | between a lo hi =>
    a.text ++ " " ++ "BETWEEN" ++ " " ++ lo.text ++ " " ++ "AND" ++ " " ++ hi.text

def Predicate.tokens : Predicate → List Token
  | compare o a b => a.tokens ++ [.op o] ++ b.tokens
  | like false a b => a.tokens ++ [.word "LIKE"] ++ b.tokens
  | like true a b => a.tokens ++ [.word "ILIKE"] ++ b.tokens
  | isNull false a => a.tokens ++ [.word "IS"] ++ [.word "NULL"]
  | isNull true a => a.tokens ++ [.word "IS"] ++ [.word "NOT"] ++ [.word "NULL"]
  | inList false a items =>
    a.tokens ++ [.word "IN"] ++
      (Token.lparen :: joinTokens .comma (items.map (·.tokens)) ++ [Token.rparen])
  | inList true a items =>
    a.tokens ++ [.word "NOT"] ++ [.word "IN"] ++
      (Token.lparen :: joinTokens .comma (items.map (·.tokens)) ++ [Token.rparen])
  | between a lo hi =>
    a.tokens ++ [.word "BETWEEN"] ++ lo.tokens ++ [.word "AND"] ++ hi.tokens

/-- Some conditions have lists, which are not empty. -/
def Predicate.Listed : Predicate → Prop
  | inList _ _ items => items ≠ []
  | _ => True

theorem Predicate.reads (p : Predicate) : Reads p.text p.tokens := by
  have hitems : ∀ items : List Operand, Reads ("(" ++ join ", " (items.map (·.text)) ++ ")")
      (Token.lparen :: joinTokens .comma (items.map (·.tokens)) ++ [Token.rparen]) := by
    intro items
    refine (Reads.join Reads.comma ?_).group
    rw [List.forall₂_map_left_iff, List.forall₂_map_right_iff, List.forall₂_same]
    exact fun a _ => a.reads
  have hword : ∀ w, isWord w = true → Reads w [.word w] := fun w => Reads.word
  cases p with
  | compare o a b => exact (a.reads.space (Reads.op o)).space b.reads
  | like ci a b => cases ci <;> exact (a.reads.space (hword _ (by decide))).space b.reads
  | isNull negated a =>
    cases negated with
    | false => exact (a.reads.space (hword _ (by decide))).space (hword _ (by decide))
    | true =>
      exact ((a.reads.space (hword _ (by decide))).space (hword _ (by decide))).space
        (hword _ (by decide))
  | inList negated a items =>
    cases negated with
    | false => exact (a.reads.space (hword _ (by decide))).space (hitems items)
    | true =>
      exact ((a.reads.space (hword _ (by decide))).space (hword _ (by decide))).space
        (hitems items)
  | between a lo hi =>
    exact (((a.reads.space (hword _ (by decide))).space lo.reads).space
      (hword _ (by decide))).space hi.reads

theorem parseItems_tokens (a : Operand) (items : List Operand) (n : Nat) (rest : List Token)
    (hn : items.length < n) :
    parseItems n (joinTokens .comma ((a :: items).map (·.tokens)) ++ .rparen :: rest) =
      some (a :: items, rest) := by
  induction items generalizing a n with
  | nil =>
    obtain ⟨n, rfl⟩ := Nat.exists_eq_succ_of_ne_zero (Nat.ne_of_gt hn)
    have hop : parseOperand (a.tokens ++ .rparen :: rest) = some (a, .rparen :: rest) :=
      a.parse (by simp)
    simp only [parseItems, List.map_cons, List.map_nil, joinTokens, hop]
  | cons b items ih =>
    obtain ⟨n, rfl⟩ := Nat.exists_eq_succ_of_ne_zero (Nat.ne_of_gt (Nat.zero_lt_of_lt hn))
    have hrec := ih b n (Nat.lt_of_succ_lt_succ hn)
    have hop : ∀ ts, parseOperand (a.tokens ++ .comma :: ts) = some (a, .comma :: ts) :=
      fun ts => a.parse (by simp)
    rw [List.map_cons, List.map_cons, joinTokens, List.append_assoc, List.cons_append]
    rw [List.map_cons] at hrec
    simp only [parseItems, hop, hrec, Option.map_some]

theorem joinTokens_length (sep : Token) (tss : List (List Token)) :
    tss.length ≤ (joinTokens sep tss).length + 1 := by
  induction tss with
  | nil => simp
  | cons ts tss ih =>
    cases tss with
    | nil => simp
    | cons us tss =>
      simp only [joinTokens, List.length_append, List.length_cons] at *
      omega

/-- **A single condition is parsed as itself.** -/
theorem Predicate.parse (p : Predicate) (hp : p.Listed) {rest : List Token}
    (hrest : AtomStop rest) : parsePredicate (p.tokens ++ rest) = some (p, rest) := by
  have hstop : ∀ t ∈ rest.head?, t ≠ .cast := by
    intro t ht
    rcases hrest t ht with rfl | rfl | rfl <;> simp
  have hitems : ∀ items : List Operand, items ≠ [] →
      parseItems (joinTokens .comma (items.map (·.tokens)) ++ .rparen :: rest).length
        (joinTokens .comma (items.map (·.tokens)) ++ .rparen :: rest) = some (items, rest) := by
    intro items hne
    cases items with
    | nil => exact absurd rfl hne
    | cons b items =>
      refine parseItems_tokens b items _ rest ?_
      have hlen := joinTokens_length .comma ((b :: items).map (·.tokens))
      simp only [List.length_map, List.length_cons, List.length_append] at *
      omega
  -- Every condition starts with an operand, and the token after it decides which test is parsed.
  have hfirst : ∀ (a : Operand) (t : Token) (ts : List Token), t ≠ .cast →
      parsePredicate (a.tokens ++ t :: ts) = parseTest a (t :: ts) := by
    intro a t ts ht
    have hop : parseOperand (a.tokens ++ t :: ts) = some (a, t :: ts) := a.parse (by simpa using ht)
    rw [parsePredicate, hop]
    rfl
  cases p with
  | compare o a b =>
    change parsePredicate (a.tokens ++ [Token.op o] ++ b.tokens ++ rest) = _
    rw [List.append_assoc, List.append_assoc, List.singleton_append, hfirst _ _ _ (by simp)]
    simp only [parseTest, b.parse hstop, Option.map_some]
  | like ci a b =>
    cases ci with
    | false =>
      change parsePredicate (a.tokens ++ [Token.word "LIKE"] ++ b.tokens ++ rest) = _
      rw [List.append_assoc, List.append_assoc, List.singleton_append, hfirst _ _ _ (by simp)]
      simp only [parseTest, b.parse hstop, Option.map_some]
    | true =>
      change parsePredicate (a.tokens ++ [Token.word "ILIKE"] ++ b.tokens ++ rest) = _
      rw [List.append_assoc, List.append_assoc, List.singleton_append, hfirst _ _ _ (by simp)]
      simp only [parseTest, b.parse hstop, Option.map_some]
  | isNull negated a =>
    cases negated with
    | false =>
      change parsePredicate (a.tokens ++ [Token.word "IS"] ++ [Token.word "NULL"] ++ rest) = _
      rw [List.append_assoc, List.append_assoc]
      exact hfirst _ _ _ (by simp)
    | true =>
      change parsePredicate
        (a.tokens ++ [Token.word "IS"] ++ [Token.word "NOT"] ++ [Token.word "NULL"] ++ rest) = _
      rw [List.append_assoc, List.append_assoc, List.append_assoc]
      exact hfirst _ _ _ (by simp)
  | inList negated a items =>
    cases negated with
    | false =>
      change parsePredicate (a.tokens ++ [Token.word "IN"] ++
        (Token.lparen :: joinTokens .comma (items.map (·.tokens)) ++ [Token.rparen]) ++ rest) = _
      rw [List.append_assoc, List.append_assoc, List.append_assoc, List.singleton_append,
        hfirst _ _ _ (by simp)]
      simp only [parseTest, List.cons_append, List.nil_append, hitems items hp, Option.map_some]
    | true =>
      change parsePredicate (a.tokens ++ [Token.word "NOT"] ++ [Token.word "IN"] ++
        (Token.lparen :: joinTokens .comma (items.map (·.tokens)) ++ [Token.rparen]) ++ rest) = _
      rw [List.append_assoc, List.append_assoc, List.append_assoc, List.append_assoc,
        List.singleton_append, hfirst _ _ _ (by simp)]
      simp only [parseTest, List.cons_append, List.nil_append, hitems items hp, Option.map_some]
  | between a lo hi =>
    change parsePredicate
      (a.tokens ++ [Token.word "BETWEEN"] ++ lo.tokens ++ [Token.word "AND"] ++ hi.tokens ++ rest) = _
    have hlo : parseOperand (lo.tokens ++ .word "AND" :: (hi.tokens ++ rest)) =
        some (lo, .word "AND" :: (hi.tokens ++ rest)) := lo.parse (by simp)
    rw [List.append_assoc, List.append_assoc, List.append_assoc, List.append_assoc,
      List.singleton_append, hfirst _ _ _ (by simp)]
    simp only [parseTest, List.singleton_append, hlo, hi.parse hstop, Option.map_some]

/-! ### Composed conditions -/

/-- The tokens are parsed as the condition, as an operand of `AND` or `OR`. -/
def ParsesAtom (ts : List Token) (e : Expr) : Prop :=
  ∀ n rest, 3 * ts.length ≤ n → AtomStop rest → parseAtom n (ts ++ rest) = some (e, rest)

/-- **The text means the condition**, wherever it stands as an operand of `AND` or `OR`. -/
def Denotes (text : String) (ps : List Nat) (e : Expr) : Prop :=
  ∃ ts, Reads text ts ∧ placeholders ts = ps ∧ ParsesAtom ts e

section Placeholders

variable (ts us : List Token)

@[simp] theorem placeholders_nil : placeholders [] = [] := rfl

@[simp] theorem placeholders_append :
    placeholders (ts ++ us) = placeholders ts ++ placeholders us := List.filterMap_append

@[simp] theorem placeholders_word (w : String) :
    placeholders (.word w :: ts) = placeholders ts := rfl

@[simp] theorem placeholders_op (o : CompareOp) : placeholders (.op o :: ts) = placeholders ts := rfl

@[simp] theorem placeholders_comma : placeholders (.comma :: ts) = placeholders ts := rfl

@[simp] theorem placeholders_lparen : placeholders (.lparen :: ts) = placeholders ts := rfl

@[simp] theorem placeholders_rparen : placeholders (.rparen :: ts) = placeholders ts := rfl

end Placeholders

/-- The parameters of a condition, in order. -/
def Operand.params : Operand → List Nat
  | param n _ => [n]
  | _ => []

def Predicate.params : Predicate → List Nat
  | compare _ a b => a.params ++ b.params
  | like _ a b => a.params ++ b.params
  | isNull _ a => a.params
  | inList _ a items => a.params ++ items.flatMap (·.params)
  | between a lo hi => a.params ++ (lo.params ++ hi.params)

/-- The columns of a condition, in order. -/
def Operand.columns : Operand → List String
  | column c => [c.text]
  | _ => []

def Predicate.columns : Predicate → List String
  | compare _ a b => a.columns ++ b.columns
  | like _ a b => a.columns ++ b.columns
  | isNull _ a => a.columns
  | inList _ a items => a.columns ++ items.flatMap (·.columns)
  | between a lo hi => a.columns ++ (lo.columns ++ hi.columns)

/-- The parameters that are cast, with the types. -/
def Operand.casts : Operand → List (Nat × TypeName)
  | param n (some t) => [(n, t)]
  | _ => []

def Predicate.casts : Predicate → List (Nat × TypeName)
  | compare _ a b => a.casts ++ b.casts
  | like _ a b => a.casts ++ b.casts
  | isNull _ a => a.casts
  | inList _ a items => a.casts ++ items.flatMap (·.casts)
  | between a lo hi => a.casts ++ (lo.casts ++ hi.casts)

def Expr.casts : Expr → List (Nat × TypeName)
  | pred p => p.casts
  | and a b => a.casts ++ b.casts
  | or a b => a.casts ++ b.casts

theorem Expr.casts_andAll (e : Expr) (es : List Expr) :
    (e.andAll es).casts = (e :: es).flatMap (·.casts) := by
  induction es generalizing e with
  | nil => exact (List.append_nil _).symm
  | cons e' es ih =>
    change e.casts ++ (e'.andAll es).casts = _
    rw [ih]
    rfl

theorem Expr.casts_orAll (e : Expr) (es : List Expr) :
    (e.orAll es).casts = (e :: es).flatMap (·.casts) := by
  induction es generalizing e with
  | nil => exact (List.append_nil _).symm
  | cons e' es ih =>
    change e.casts ++ (e'.orAll es).casts = _
    rw [ih]
    rfl

@[simp] theorem Operand.placeholders_tokens (a : Operand) : placeholders a.tokens = a.params := by
  cases a with
  | param n cast =>
    cases cast with
    | none => rfl
    | some t => cases t <;> rfl
  | _ => rfl

theorem placeholders_joinTokens {sep : Token} (hsep : ∀ ts, placeholders (sep :: ts) = placeholders ts)
    (tss : List (List Token)) :
    placeholders (joinTokens sep tss) = tss.flatMap placeholders := by
  induction tss with
  | nil => rfl
  | cons ts tss ih =>
    cases tss with
    | nil => simp [joinTokens]
    | cons us tss =>
      rw [joinTokens, placeholders_append, hsep, ih]
      rfl

theorem Predicate.placeholders_tokens (p : Predicate) : placeholders p.tokens = p.params := by
  have hitems : ∀ items : List Operand,
      placeholders (joinTokens .comma (items.map (·.tokens))) = items.flatMap (·.params) := by
    intro items
    rw [placeholders_joinTokens placeholders_comma, List.flatMap_map]
    simp
  cases p with
  | compare o a b => simp [tokens, params]
  | like ci a b => cases ci <;> simp [tokens, params]
  | isNull negated a => cases negated <;> simp [tokens, params]
  | inList negated a items => cases negated <;> simp [tokens, params, hitems]
  | between a lo hi => simp [tokens, params]

/-- A condition begins with an operand, and so with no parenthesis. -/
theorem Predicate.tokens_eq_cons (p : Predicate) :
    ∃ t ts, p.tokens = t :: ts ∧ t ≠ .lparen := by
  have hoperand : ∀ a : Operand, ∃ t ts, a.tokens = t :: ts ∧ t ≠ .lparen := by
    intro a
    cases a with
    | param n cast => cases cast <;> exact ⟨_, _, rfl, by simp⟩
    | _ => exact ⟨_, _, rfl, by simp⟩
  have hfirst : ∀ (a : Operand) (us : List Token),
      ∃ t ts, a.tokens ++ us = t :: ts ∧ t ≠ .lparen := by
    intro a us
    obtain ⟨t, ts, heq, ht⟩ := hoperand a
    exact ⟨t, ts ++ us, by rw [heq, List.cons_append], ht⟩
  cases p with
  | compare o a b => simpa [tokens] using hfirst a _
  | like ci a b => cases ci <;> simpa [tokens] using hfirst a _
  | isNull negated a => cases negated <;> simpa [tokens] using hfirst a _
  | inList negated a items => cases negated <;> simpa [tokens] using hfirst a _
  | between a lo hi => simpa [tokens] using hfirst a _

/-- **A single condition** means itself. -/
theorem Denotes.pred (p : Predicate) (hp : p.Listed) : Denotes p.text p.params (.pred p) := by
  refine ⟨p.tokens, p.reads, p.placeholders_tokens, fun n rest hn hrest => ?_⟩
  have hparse := p.parse hp hrest
  obtain ⟨t, ts, heq, ht⟩ := p.tokens_eq_cons
  rw [heq] at hparse hn ⊢
  rw [List.cons_append] at hparse ⊢
  obtain ⟨n, rfl⟩ : ∃ m, n = m + 1 := Nat.exists_eq_succ_of_ne_zero (by
    rw [List.length_cons] at hn
    omega)
  have hatom : parseAtom (n + 1) (t :: (ts ++ rest)) =
      (parsePredicate (t :: (ts ++ rest))).map fun q => (.pred q.1, q.2) := by
    cases t with
    | lparen => exact absurd rfl ht
    | _ => rfl
  rw [hatom, hparse]
  rfl

/-- What may follow a conjunction, and a disjunction. -/
def AndStop (rest : List Token) : Prop := ∀ t ∈ rest.head?, t = .rparen ∨ t = .word "OR"

def OrStop (rest : List Token) : Prop := ∀ t ∈ rest.head?, t = .rparen

theorem AndStop.atom {rest : List Token} (h : AndStop rest) : AtomStop rest := by
  intro t ht
  rcases h t ht with rfl | rfl <;> simp

theorem OrStop.and {rest : List Token} (h : OrStop rest) : AndStop rest :=
  fun t ht => .inl (h t ht)

theorem parseAnd_stop {n : Nat} {ts rest : List Token} {e : Expr}
    (h : parseAtom n ts = some (e, rest)) (hrest : AndStop rest) :
    parseAnd (n + 1) ts = some (e, rest) := by
  simp only [parseAnd, h]
  cases rest with
  | nil => rfl
  | cons t rest => rcases hrest t rfl with rfl | rfl <;> rfl

theorem parseOr_stop {n : Nat} {ts rest : List Token} {e : Expr}
    (h : parseAnd n ts = some (e, rest)) (hrest : OrStop rest) :
    parseOr (n + 1) ts = some (e, rest) := by
  simp only [parseOr, h]
  cases rest with
  | nil => rfl
  | cons t rest =>
    obtain rfl := hrest t rfl
    rfl

/-- Operands joined by `AND`. -/
theorem parseAnd_joinTokens {ts : List Token} {tss : List (List Token)} {e : Expr} {es : List Expr}
    (he : ParsesAtom ts e) (h : List.Forall₂ ParsesAtom tss es) {n : Nat} {rest : List Token}
    (hn : 3 * (joinTokens (.word "AND") (ts :: tss)).length + 1 ≤ n) (hrest : AndStop rest) :
    parseAnd n (joinTokens (.word "AND") (ts :: tss) ++ rest) = some (e.andAll es, rest) := by
  obtain ⟨n, rfl⟩ : ∃ m, n = m + 1 := Nat.exists_eq_succ_of_ne_zero (by omega)
  induction h generalizing ts e n with
  | nil => exact parseAnd_stop (he n rest (by simpa [joinTokens] using hn) hrest.atom) hrest
  | @cons us e' tss es he' htail ih =>
    simp only [joinTokens, List.length_append, List.length_cons] at hn
    have hfirst := he n (.word "AND" :: (joinTokens (.word "AND") (us :: tss) ++ rest)) (by omega)
      (by simp [AtomStop])
    obtain ⟨n, rfl⟩ : ∃ m, n = m + 1 := Nat.exists_eq_succ_of_ne_zero (by omega)
    have hrest := ih he' n (by omega)
    rw [joinTokens, List.append_assoc, List.cons_append]
    simp only [parseAnd, hfirst]
    simp only [parseAnd] at hrest
    rw [hrest]
    rfl

/-- Operands joined by `OR`. -/
theorem parseOr_joinTokens {ts : List Token} {tss : List (List Token)} {e : Expr} {es : List Expr}
    (he : ParsesAtom ts e) (h : List.Forall₂ ParsesAtom tss es) {n : Nat} {rest : List Token}
    (hn : 3 * (joinTokens (.word "OR") (ts :: tss)).length + 2 ≤ n) (hrest : OrStop rest) :
    parseOr n (joinTokens (.word "OR") (ts :: tss) ++ rest) = some (e.orAll es, rest) := by
  obtain ⟨n, rfl⟩ : ∃ m, n = m + 2 := ⟨n - 2, by omega⟩
  induction h generalizing ts e n with
  | nil =>
    have hatom := he n rest (by simpa [joinTokens] using hn) hrest.and.atom
    exact parseOr_stop (parseAnd_stop hatom hrest.and) hrest
  | @cons us e' tss es he' htail ih =>
    simp only [joinTokens, List.length_append, List.length_cons] at hn
    have hfirst := parseAnd_stop (he n (.word "OR" :: (joinTokens (.word "OR") (us :: tss) ++ rest))
      (by omega) (by simp [AtomStop])) (by simp [AndStop])
    obtain ⟨n, rfl⟩ : ∃ m, n = m + 1 := Nat.exists_eq_succ_of_ne_zero (by omega)
    have hrest := ih he' n (by omega)
    rw [joinTokens, List.append_assoc, List.cons_append]
    simp only [parseOr, hfirst]
    simp only [parseOr] at hrest
    rw [hrest]
    rfl

/-- A group in parentheses is an operand again. -/
theorem ParsesAtom.group {ts : List Token} {e : Expr}
    (h : ∀ n rest, 3 * ts.length + 2 ≤ n → OrStop rest → parseOr n (ts ++ rest) = some (e, rest)) :
    ParsesAtom (Token.lparen :: ts ++ [Token.rparen]) e := by
  intro n rest hn _
  simp only [List.length_append, List.length_cons, List.length_nil] at hn
  obtain ⟨n, rfl⟩ : ∃ m, n = m + 1 := Nat.exists_eq_succ_of_ne_zero (by omega)
  have hor := h n (.rparen :: rest) (by omega) (by simp [OrStop])
  rw [List.append_assoc, List.cons_append, List.singleton_append]
  simp only [parseAtom, hor]

/-- Texts that mean conditions one by one, with all their placeholders. -/
inductive DenotesAll : List String → List Nat → List Expr → Prop
  | nil : DenotesAll [] [] []
  | cons {a : String} {as : List String} {ps qs : List Nat} {e : Expr} {es : List Expr}
    (head : Denotes a ps e) (tail : DenotesAll as qs es) : DenotesAll (a :: as) (ps ++ qs) (e :: es)

theorem DenotesAll.tokens {as : List String} {ps : List Nat} {es : List Expr}
    (h : DenotesAll as ps es) :
    ∃ tss, List.Forall₂ Reads as tss ∧ tss.flatMap placeholders = ps ∧
      List.Forall₂ ParsesAtom tss es := by
  induction h with
  | nil => exact ⟨[], .nil, rfl, .nil⟩
  | cons head _ ih =>
    obtain ⟨ts, hreads, rfl, hparse⟩ := head
    obtain ⟨tss, hreadsAll, rfl, hparseAll⟩ := ih
    exact ⟨ts :: tss, .cons hreads hreadsAll, rfl, .cons hparse hparseAll⟩

theorem DenotesAll.append {as bs : List String} {ps qs : List Nat} {es fs : List Expr}
    (h : DenotesAll as ps es) (h' : DenotesAll bs qs fs) :
    DenotesAll (as ++ bs) (ps ++ qs) (es ++ fs) := by
  induction h with
  | nil => exact h'
  | cons head _ ih =>
    rw [List.append_assoc]
    exact .cons head ih

theorem Reads.and {a b : String} {ts us : List Token} (ha : Reads a ts) (hb : Reads b us) :
    Reads (a ++ " AND " ++ b) (ts ++ .word "AND" :: us) := ha.keyword (w := "AND") (by decide) hb

theorem Reads.or {a b : String} {ts us : List Token} (ha : Reads a ts) (hb : Reads b us) :
    Reads (a ++ " OR " ++ b) (ts ++ .word "OR" :: us) := ha.keyword (w := "OR") (by decide) hb

section Groups

variable {a : String} {as : List String} {ps : List Nat} {e : Expr} {es : List Expr}

/-- **A parenthesized conjunction** means the conjunction of its parts. -/
theorem Denotes.all (h : DenotesAll (a :: as) ps (e :: es)) :
    Denotes ("(" ++ join " AND " (a :: as) ++ ")") ps (e.andAll es) := by
  obtain ⟨tss, hreads, rfl, hparse⟩ := h.tokens
  cases hparse with
  | cons he hes =>
    rename_i ts tss
    refine ⟨Token.lparen :: joinTokens (.word "AND") (ts :: tss) ++ [Token.rparen],
      (Reads.join Reads.and hreads).group, ?_,
      ParsesAtom.group fun n rest hn hrest => ?_⟩
    · rw [placeholders_append, placeholders_lparen,
        placeholders_joinTokens (placeholders_word · "AND")]
      exact List.append_nil _
    · obtain ⟨n, rfl⟩ : ∃ m, n = m + 1 := Nat.exists_eq_succ_of_ne_zero (by omega)
      exact parseOr_stop (parseAnd_joinTokens he hes (by omega) hrest.and) hrest

/-- **A parenthesized disjunction** means the disjunction of its parts. -/
theorem Denotes.any (h : DenotesAll (a :: as) ps (e :: es)) :
    Denotes ("(" ++ join " OR " (a :: as) ++ ")") ps (e.orAll es) := by
  obtain ⟨tss, hreads, rfl, hparse⟩ := h.tokens
  cases hparse with
  | cons he hes =>
    rename_i ts tss
    refine ⟨Token.lparen :: joinTokens (.word "OR") (ts :: tss) ++ [Token.rparen],
      (Reads.join Reads.or hreads).group, ?_,
      ParsesAtom.group fun n rest hn hrest => parseOr_joinTokens he hes hn hrest⟩
    rw [placeholders_append, placeholders_lparen, placeholders_joinTokens (placeholders_word · "OR")]
    exact List.append_nil _

/-- **A conjunction at the top of a text** means the conjunction of its parts. -/
theorem condition_join (h : DenotesAll (a :: as) ps (e :: es)) :
    condition (join " AND " (a :: as)) = some (e.andAll es) := by
  obtain ⟨tss, hreads, -, hparse⟩ := h.tokens
  cases hparse with
  | cons he hes =>
    rename_i ts tss
    have hlex : lex (join " AND " (a :: as)) = some (joinTokens (.word "AND") (ts :: tss)) :=
      (Reads.join Reads.and hreads).lex
    have hand : parseAnd (3 * (joinTokens (.word "AND") (ts :: tss)).length + 1)
        (joinTokens (.word "AND") (ts :: tss) ++ []) = some (e.andAll es, []) :=
      parseAnd_joinTokens he hes (Nat.le_refl _) (by simp [AndStop])
    have hor := parseOr_stop hand (by simp [OrStop])
    rw [List.append_nil] at hor
    simp only [condition, hlex, Option.bind_eq_bind, Option.bind_some, hor]

/-- A text that means a condition is not empty. -/
theorem Denotes.ne_empty (h : Denotes a ps e) : a ≠ "" := by
  rintro rfl
  obtain ⟨ts, hreads, -, hparse⟩ := h
  have hnil : some ts = some [] := hreads.lex.symm
  cases hnil
  have hparse := hparse 1 [] (by simp) (by simp [AtomStop])
  cases hparse

end Groups

theorem join_append_singleton (sep : String) {parts : List String} (hne : parts ≠ [])
    (part : String) : join sep (parts ++ [part]) = join sep parts ++ sep ++ part := by
  induction parts with
  | nil => exact absurd rfl hne
  | cons a parts ih =>
    cases parts with
    | nil => rfl
    | cons b parts =>
      change a ++ sep ++ join sep (b :: parts ++ [part]) = _
      rw [ih (List.cons_ne_nil b parts), join]
      simp only [String.append_assoc]

/-- Single conditions, one by one. -/
theorem DenotesAll.preds {ps : List Predicate} (h : ∀ p ∈ ps, p.Listed) :
    DenotesAll (ps.map (·.text)) (ps.flatMap (·.params)) (ps.map .pred) := by
  induction ps with
  | nil => exact .nil
  | cons p ps ih =>
    exact .cons (Denotes.pred p (h p List.mem_cons_self))
      (ih fun q hq => h q (List.mem_cons_of_mem _ hq))

end SqlText
