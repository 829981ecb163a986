import Authrs.SqlText.Condition

/-!
# Words and symbols of a condition

The lexer reads a text from left to right and keeps the token it is in. A text that is followed by
a blank, a comma, a closing parenthesis or nothing is read the same way whatever follows; so the
tokens of a composed text are those of its parts.

## Main definitions

* `Token`, `lex`: the tokens, and the lexer
* `placeholders`, `columns`: the parameters and the column names among tokens
* `Reads text ts`: the text is read as the tokens, wherever it stands

## Main results

* `Reads.word`, `Reads.param`, `Reads.literal`: single tokens
* `Reads.space`, `Reads.group`, `Reads.join`: composed texts
-/

namespace SqlText

inductive Token
  | word (w : String)
  | param (n : Nat)
  | literal (text : String)
  | op (o : CompareOp)
  | cast
  | comma
  | lparen
  | rparen
  deriving DecidableEq

/-- The token the lexer is in. -/
inductive Scan
  | start
  | word (cs : List Char)
  | param (digits : List Char)
  | literal (cs : List Char)
  | bang
  | less
  | greater
  | colon
  deriving DecidableEq

/-- A character at the start of a token: the tokens it completes, and the one it begins. -/
def Scan.begin (c : Char) : Option (List Token × Scan) :=
  if c = ' ' then some ([], start)
  else if c = '(' then some ([.lparen], start)
  else if c = ')' then some ([.rparen], start)
  else if c = ',' then some ([.comma], start)
  else if c = '=' then some ([.op .eq], start)
  else if c = '!' then some ([], bang)
  else if c = '<' then some ([], less)
  else if c = '>' then some ([], greater)
  else if c = ':' then some ([], colon)
  else if c = '$' then some ([], param [])
  else if c = '\'' then some ([], literal [])
  else if isNameStart c then some ([], word [c])
  else none

/-- The token that ends here. -/
def Scan.finish : Scan → Option (List Token)
  | start => some []
  | word cs => some [.word (String.ofList cs)]
  | param [] => none
  | param (d :: ds) => some [.param (Nat.ofDigitChars 10 (d :: ds) 0)]
  | less => some [.op .lt]
  | greater => some [.op .gt]
  | _ => none

/-- The present token ends before `c`. -/
def Scan.cut (sc : Scan) (c : Char) : Option (List Token × Scan) := do
  let ts ← sc.finish
  let p ← begin c
  pure (ts ++ p.1, p.2)

/-- One character. -/
def Scan.step (sc : Scan) (c : Char) : Option (List Token × Scan) :=
  match sc with
  | start => begin c
  | word cs => if isNameChar c then some ([], word (cs ++ [c])) else sc.cut c
  | param ds => if c.isDigit then some ([], param (ds ++ [c])) else sc.cut c
  | literal cs =>
    if c = '\'' then some ([.literal (String.ofList cs)], start) else some ([], literal (cs ++ [c]))
  | bang => if c = '=' then some ([.op .neq], start) else none
  | less => if c = '=' then some ([.op .le], start) else sc.cut c
  | greater => if c = '=' then some ([.op .ge], start) else sc.cut c
  | colon => if c = ':' then some ([.cast], start) else none

/-- The tokens of a text, from inside a token. -/
def lexFrom : Scan → List Char → Option (List Token)
  | sc, [] => sc.finish
  | sc, c :: cs => do
    let p ← sc.step c
    let ts ← lexFrom p.2 cs
    pure (p.1 ++ ts)

/-- **The tokens of a text.** -/
def lex (s : String) : Option (List Token) := lexFrom .start s.toList

/-- The placeholders among tokens. -/
def placeholders (ts : List Token) : List Nat :=
  ts.filterMap fun
    | .param n => some n
    | _ => none

/-- The column names among tokens: the words, except keywords and the type after a cast. -/
def columns : List Token → List String
  | [] => []
  | .cast :: .word "double" :: .word "precision" :: ts => columns ts
  | .cast :: .word _ :: ts => columns ts
  | .word w :: ts => if keywords.contains (upper w) then columns ts else w :: columns ts
  | _ :: ts => columns ts

/-! ### Reading the parts of a text -/

/-- A text ends here: the next character, if any, begins another token. -/
def Delimited (rest : List Char) : Prop := ∀ c ∈ rest.head?, c = ' ' ∨ c = ')' ∨ c = ','

/-- **The text is read as the tokens**, wherever it stands. -/
def Reads (text : String) (ts : List Token) : Prop :=
  ∀ rest, Delimited rest →
    lexFrom .start (text.toList ++ rest) = (lexFrom .start rest).map (ts ++ ·)

theorem Reads.lex {text : String} {ts : List Token} (h : Reads text ts) : lex text = some ts := by
  have hread := h [] (by simp [Delimited])
  simpa [lexFrom, Scan.finish, SqlText.lex] using hread

theorem Delimited.space (cs : List Char) : Delimited (' ' :: cs) := by simp [Delimited]

theorem Delimited.rparen (cs : List Char) : Delimited (')' :: cs) := by simp [Delimited]

theorem Delimited.comma (cs : List Char) : Delimited (',' :: cs) := by simp [Delimited]

theorem lexFrom_cons (sc : Scan) (c : Char) (cs : List Char) :
    lexFrom sc (c :: cs) =
      (sc.step c).bind fun p => (lexFrom p.2 cs).map (p.1 ++ ·) := by
  rw [lexFrom]
  cases sc.step c with
  | none => rfl
  | some p =>
    simp only [Option.bind_eq_bind, Option.bind_some]
    cases lexFrom p.2 cs <;> rfl

/-- A token that ends before a character. -/
theorem lexFrom_cut {sc : Scan} {ts : List Token} {c : Char} (hf : sc.finish = some ts)
    (hstep : sc.step c = sc.cut c) (cs : List Char) :
    lexFrom sc (c :: cs) = (lexFrom .start (c :: cs)).map (ts ++ ·) := by
  have hcut : sc.cut c = (Scan.begin c).map fun p => (ts ++ p.1, p.2) := by
    rw [Scan.cut, hf]
    cases Scan.begin c <;> rfl
  rw [lexFrom_cons, lexFrom_cons, hstep, hcut, Scan.step]
  cases Scan.begin c with
  | none => rfl
  | some p =>
    simp only [Option.map_some, Option.bind_some]
    cases lexFrom p.2 cs with
    | none => rfl
    | some ts' => simp

theorem lexFrom_nil {sc : Scan} {ts : List Token} (hf : sc.finish = some ts) :
    lexFrom sc [] = (lexFrom .start []).map (ts ++ ·) := by
  rw [lexFrom, hf]
  exact congrArg some (List.append_nil ts).symm

theorem lexFrom_word (cs : List Char) {w rest : List Char} (hw : ∀ c ∈ w, isNameChar c = true)
    (hrest : Delimited rest) :
    lexFrom (.word cs) (w ++ rest) =
      (lexFrom .start rest).map (.word (String.ofList (cs ++ w)) :: ·) := by
  induction w generalizing cs with
  | nil =>
    rw [List.nil_append, List.append_nil]
    have hf : (Scan.word cs).finish = some [.word (String.ofList cs)] := rfl
    cases rest with
    | nil => exact lexFrom_nil hf
    | cons c rest =>
      refine lexFrom_cut hf ?_ rest
      rcases hrest c rfl with rfl | rfl | rfl <;> rfl
  | cons c w ih =>
    have hc := hw c List.mem_cons_self
    have hrec := ih (cs ++ [c]) fun d hd => hw d (List.mem_cons_of_mem _ hd)
    rw [List.cons_append, lexFrom_cons, Scan.step, if_pos hc, Option.bind_some, hrec,
      List.append_assoc, List.singleton_append, Option.map_map]
    rfl

/-- A placeholder can also be followed by a cast. -/
theorem lexFrom_param (ds : List Char) {w rest : List Char} (hw : ∀ c ∈ w, c.isDigit = true)
    (hne : ds ++ w ≠ []) (hrest : ∀ c ∈ rest.head?, c = ' ' ∨ c = ')' ∨ c = ',' ∨ c = ':') :
    lexFrom (.param ds) (w ++ rest) =
      (lexFrom .start rest).map (.param (Nat.ofDigitChars 10 (ds ++ w) 0) :: ·) := by
  induction w generalizing ds with
  | nil =>
    rw [List.append_nil] at hne
    rw [List.nil_append, List.append_nil]
    have hf : (Scan.param ds).finish = some [.param (Nat.ofDigitChars 10 ds 0)] := by
      cases ds with
      | nil => exact absurd rfl hne
      | cons d ds => rfl
    cases rest with
    | nil => exact lexFrom_nil hf
    | cons c rest =>
      refine lexFrom_cut hf ?_ rest
      rcases hrest c rfl with rfl | rfl | rfl | rfl <;> rfl
  | cons c w ih =>
    have hc := hw c List.mem_cons_self
    have hrec := ih (ds ++ [c]) (fun d hd => hw d (List.mem_cons_of_mem _ hd)) (by simp)
    rw [List.cons_append, lexFrom_cons, Scan.step, if_pos hc, Option.bind_some, hrec,
      List.append_assoc, List.singleton_append, Option.map_map]
    rfl

theorem Reads.word {w : String} (hw : isWord w = true) : Reads w [.word w] := by
  intro rest hrest
  unfold isWord at hw
  split at hw
  · cases hw
  · next c cs heq =>
    rw [Bool.and_eq_true, List.all_eq_true] at hw
    have hbegin : Scan.begin c = some ([], .word [c]) := by
      have hstart : ∀ d, isNameStart d = false → c ≠ d := by
        rintro d hd rfl
        rw [hw.1] at hd
        cases hd
      unfold Scan.begin
      rw [if_neg (hstart _ (by decide)), if_neg (hstart _ (by decide)),
        if_neg (hstart _ (by decide)), if_neg (hstart _ (by decide)),
        if_neg (hstart _ (by decide)), if_neg (hstart _ (by decide)),
        if_neg (hstart _ (by decide)), if_neg (hstart _ (by decide)),
        if_neg (hstart _ (by decide)), if_neg (hstart _ (by decide)),
        if_neg (hstart _ (by decide)), if_pos hw.1]
    have hword := lexFrom_word [c] hw.2 hrest
    rw [heq, List.cons_append, lexFrom_cons, Scan.step, hbegin, Option.bind_some, hword,
      List.singleton_append, ← heq, String.ofList_toList, Option.map_map]
    rfl

/-- The digits of a placeholder, before a delimiter or a cast. -/
theorem lexFrom_placeholder (n : Nat) {rest : List Char}
    (hrest : ∀ c ∈ rest.head?, c = ' ' ∨ c = ')' ∨ c = ',' ∨ c = ':') :
    lexFrom .start (("$" ++ toString n).toList ++ rest) =
      (lexFrom .start rest).map (.param n :: ·) := by
  have hdigits : (toString n).toList = Nat.toDigits 10 n := Nat.toList_repr
  have hall : ∀ c ∈ Nat.toDigits 10 n, c.isDigit = true :=
    fun c hc => Nat.isDigit_of_mem_toDigits (by omega) (by omega) hc
  have hparam := lexFrom_param [] hall Nat.toDigits_ne_nil hrest
  rw [String.toList_append, hdigits]
  change lexFrom .start ('$' :: (Nat.toDigits 10 n ++ rest)) = _
  have hbegin : Scan.begin '$' = some ([], .param []) := by decide
  rw [lexFrom_cons, Scan.step, hbegin, Option.bind_some, hparam, List.nil_append,
    Nat.ofDigitChars_ten_toDigits, Option.map_map]
  rfl

theorem Reads.param (n : Nat) : Reads ("$" ++ toString n) [.param n] := by
  intro rest hrest
  refine lexFrom_placeholder n fun c hc => ?_
  rcases hrest c hc with h | h | h <;> simp [h]

/-- A symbol that is a token by itself. -/
theorem lexFrom_symbol {c : Char} {t : Token} (h : Scan.begin c = some ([t], .start))
    (rest : List Char) : lexFrom .start (c :: rest) = (lexFrom .start rest).map (t :: ·) := by
  rw [lexFrom_cons, Scan.step, h]
  rfl

theorem lexFrom_space (rest : List Char) :
    lexFrom .start (' ' :: rest) = lexFrom .start rest := by
  rw [lexFrom_cons]
  change (lexFrom .start rest).map ([] ++ ·) = _
  simp

/-- A placeholder with a cast. -/
theorem Reads.cast (n : Nat) {t : String} {ts : List Token} (ht : Reads t ts) :
    Reads ("$" ++ toString n ++ "::" ++ t) (.param n :: .cast :: ts) := by
  intro rest hrest
  rw [String.toList_append, String.toList_append, List.append_assoc, List.append_assoc]
  rw [lexFrom_placeholder n (by simp)]
  change Option.map _ (lexFrom .start (':' :: ':' :: (t.toList ++ rest))) = _
  have hcast : lexFrom .start (':' :: ':' :: (t.toList ++ rest)) =
      (lexFrom .start (t.toList ++ rest)).map (.cast :: ·) := by
    rw [lexFrom_cons, show Scan.step .start ':' = some ([], .colon) by decide, Option.bind_some,
      lexFrom_cons, show Scan.step .colon ':' = some ([.cast], .start) by decide, Option.bind_some,
      Option.map_map]
    rfl
  rw [hcast, ht rest hrest, Option.map_map, Option.map_map]
  rfl

/-- The text of a comparison operator. -/
def CompareOp.text : CompareOp → String
  | eq => "="
  | neq => "!="
  | gt => ">"
  | ge => ">="
  | lt => "<"
  | le => "<="

theorem Reads.op (o : CompareOp) : Reads o.text [.op o] := by
  intro rest hrest
  -- An operator of one character ends where something else begins.
  have hcut : ∀ (sc : Scan) (t : Token), sc.finish = some [t] →
      (∀ c, c = ' ' ∨ c = ')' ∨ c = ',' → sc.step c = sc.cut c) →
      lexFrom sc rest = (lexFrom .start rest).map (t :: ·) := by
    intro sc t hf hstep
    cases rest with
    | nil => exact lexFrom_nil hf
    | cons c rest => exact lexFrom_cut hf (hstep c (hrest c rfl)) rest
  cases o with
  | eq =>
    change lexFrom .start ('=' :: rest) = _
    exact lexFrom_symbol (by decide) rest
  | neq =>
    change lexFrom .start ('!' :: '=' :: rest) = _
    rw [lexFrom_cons, show Scan.step .start '!' = some ([], .bang) by decide, Option.bind_some,
      lexFrom_cons, show Scan.step .bang '=' = some ([.op .neq], .start) by decide,
      Option.bind_some, Option.map_map]
    rfl
  | gt =>
    change lexFrom .start ('>' :: rest) = _
    rw [lexFrom_cons, show Scan.step .start '>' = some ([], .greater) by decide, Option.bind_some,
      hcut .greater (.op .gt) rfl (by rintro c (rfl | rfl | rfl) <;> rfl),
      Option.map_map]
    rfl
  | ge =>
    change lexFrom .start ('>' :: '=' :: rest) = _
    rw [lexFrom_cons, show Scan.step .start '>' = some ([], .greater) by decide, Option.bind_some,
      lexFrom_cons, show Scan.step .greater '=' = some ([.op .ge], .start) by decide,
      Option.bind_some, Option.map_map]
    rfl
  | lt =>
    change lexFrom .start ('<' :: rest) = _
    rw [lexFrom_cons, show Scan.step .start '<' = some ([], .less) by decide, Option.bind_some,
      hcut .less (.op .lt) rfl (by rintro c (rfl | rfl | rfl) <;> rfl),
      Option.map_map]
    rfl
  | le =>
    change lexFrom .start ('<' :: '=' :: rest) = _
    rw [lexFrom_cons, show Scan.step .start '<' = some ([], .less) by decide, Option.bind_some,
      lexFrom_cons, show Scan.step .less '=' = some ([.op .le], .start) by decide,
      Option.bind_some, Option.map_map]
    rfl

theorem Reads.literal (l : Literal) : Reads ("'" ++ l.text ++ "'") [.literal l.text] := by
  intro rest _
  have hscan : ∀ (cs w : List Char), '\'' ∉ w →
      lexFrom (.literal cs) (w ++ '\'' :: rest) =
        (lexFrom .start rest).map (.literal (String.ofList (cs ++ w)) :: ·) := by
    intro cs w hw
    induction w generalizing cs with
    | nil =>
      rw [List.nil_append, lexFrom_cons, Scan.step, if_pos rfl, List.append_nil]
      rfl
    | cons c w ih =>
      have hc : c ≠ '\'' := fun h => hw (h ▸ List.mem_cons_self)
      have hrec := ih (cs ++ [c]) fun h => hw (List.mem_cons_of_mem _ h)
      rw [List.cons_append, lexFrom_cons, Scan.step, if_neg hc, Option.bind_some, hrec,
        List.append_assoc, List.singleton_append, Option.map_map]
      rfl
  rw [String.toList_append, String.toList_append, List.append_assoc, List.append_assoc]
  change lexFrom .start ('\'' :: (l.text.toList ++ '\'' :: rest)) = _
  rw [lexFrom_cons, show Scan.step .start '\'' = some ([], .literal []) by decide,
    Option.bind_some, hscan [] _ l.valid, List.nil_append, String.ofList_toList, Option.map_map]
  rfl

/-! ### Composed texts -/

section Composed

variable {a b : String} {ts us : List Token}

theorem Reads.space (ha : Reads a ts) (hb : Reads b us) : Reads (a ++ " " ++ b) (ts ++ us) := by
  intro rest hrest
  rw [String.toList_append, String.toList_append, List.append_assoc, List.append_assoc]
  change lexFrom .start (a.toList ++ ' ' :: (b.toList ++ rest)) = _
  rw [ha _ (.space _), lexFrom_space, hb rest hrest, Option.map_map]
  congr 1
  funext x
  simp

theorem Reads.comma (ha : Reads a ts) (hb : Reads b us) :
    Reads (a ++ ", " ++ b) (ts ++ .comma :: us) := by
  intro rest hrest
  rw [String.toList_append, String.toList_append, List.append_assoc, List.append_assoc]
  change lexFrom .start (a.toList ++ ',' :: ' ' :: (b.toList ++ rest)) = _
  rw [ha _ (.comma _), lexFrom_symbol (t := .comma) (by decide), lexFrom_space, hb rest hrest,
    Option.map_map, Option.map_map]
  congr 1
  funext x
  simp

theorem Reads.group (ha : Reads a ts) :
    Reads ("(" ++ a ++ ")") (Token.lparen :: ts ++ [Token.rparen]) := by
  intro rest hrest
  rw [String.toList_append, String.toList_append, List.append_assoc, List.append_assoc]
  change lexFrom .start ('(' :: (a.toList ++ ')' :: rest)) = _
  rw [lexFrom_symbol (t := .lparen) (by decide), ha _ (.rparen _),
    lexFrom_symbol (t := .rparen) (by decide), Option.map_map, Option.map_map]
  congr 1
  funext x
  simp

/-- `[String]::join`. -/
def join (sep : String) : List String → String
  | [] => ""
  | [a] => a
  | a :: b :: parts => a ++ sep ++ join sep (b :: parts)

/-- The text of a type name. -/
def TypeName.text (t : TypeName) : String := SqlText.join " " t.words

/-- The tokens of parts with a token between them. -/
def joinTokens (sep : Token) : List (List Token) → List Token
  | [] => []
  | [ts] => ts
  | ts :: us :: parts => ts ++ sep :: joinTokens sep (us :: parts)

/-- Parts that are joined by a separator are read part by part. -/
theorem Reads.join {sep : String} {t : Token}
    (hsep : ∀ {a b : String} {ts us : List Token}, Reads a ts → Reads b us →
      Reads (a ++ sep ++ b) (ts ++ t :: us)) {parts : List String} {tss : List (List Token)}
    (h : List.Forall₂ Reads parts tss) : Reads (SqlText.join sep parts) (joinTokens t tss) := by
  induction h with
  | nil =>
    intro rest hrest
    change lexFrom .start rest = (lexFrom .start rest).map ([] ++ ·)
    simp
  | cons ha hrest ih =>
    cases hrest with
    | nil => exact ha
    | cons hb hrest => exact hsep ha ih

/-- A keyword between blanks. -/
theorem Reads.keyword {w : String} (hw : isWord w = true) (ha : Reads a ts) (hb : Reads b us) :
    Reads (a ++ (" " ++ w ++ " ") ++ b) (ts ++ .word w :: us) := by
  have h := (ha.space (Reads.word hw)).space hb
  intro rest hrest
  have hread := h rest hrest
  rw [List.append_assoc, List.singleton_append] at hread
  rw [← hread]
  simp

end Composed

end SqlText
