import Authrs.SqlText.Parser

/-!
# The columns of a text

Which columns a text names: the words the lexer reads, except keywords and the types of casts. A
composed text names what its parts name.

## Main definitions

* `Columns ts cs`: the tokens name the columns, whatever follows them
* `Names text P`: the text is read as tokens that name only columns with the property

## Main results

* `Predicate.columns_tokens`: a single condition names its columns
* `Names.pred`, `Names.join`, `Names.group`: composed texts
-/

namespace SqlText

/-- The tokens name the columns, whatever follows them. -/
def Columns (ts : List Token) (cs : List String) : Prop :=
  ∀ rest, columns (ts ++ rest) = cs ++ columns rest

theorem Columns.append {ts us : List Token} {cs ds : List String} (h : Columns ts cs)
    (h' : Columns us ds) : Columns (ts ++ us) (cs ++ ds) := by
  intro rest
  rw [List.append_assoc, h, h', List.append_assoc]

theorem Columns.eq {ts : List Token} {cs : List String} (h : Columns ts cs) : columns ts = cs := by
  have hnil := h []
  rwa [List.append_nil, columns, List.append_nil] at hnil

/-- Keywords are no columns. -/
theorem Columns.keyword {w : String} (hw : keywords.contains (upper w) = true) :
    Columns [.word w] [] := by
  intro rest
  change (if keywords.contains (upper w) = true then _ else _) = _
  rw [if_pos hw]
  rfl

theorem Columns.column (c : ColumnRef) : Columns [.word c.text] [c.text] := by
  intro rest
  have hkeyword : keywords.contains (upper c.text) = false := by
    have hvalid := c.valid
    rw [isColumnName, Bool.and_eq_true, Bool.not_eq_true'] at hvalid
    exact hvalid.2
  change (if keywords.contains (upper c.text) = true then _ else _) = _
  rw [hkeyword]
  rfl

theorem Operand.columns_tokens (a : Operand) : Columns a.tokens a.columns := by
  cases a with
  | column c => exact .column c
  | param n cast =>
    intro rest
    cases cast with
    | none => rfl
    | some t => cases t <;> rfl
  | literal l => exact fun rest => rfl

theorem Columns.join {t : Token} (ht : Columns [t] []) {tss : List (List Token)}
    {css : List (List String)} (h : List.Forall₂ Columns tss css) :
    Columns (joinTokens t tss) css.flatten := by
  induction h with
  | nil => exact fun rest => rfl
  | @cons ts cs tss css hts hrest ih =>
    cases hrest with
    | nil => simpa [joinTokens] using hts
    | cons hus hrest => exact hts.append (ht.append ih)

theorem Columns.group {ts : List Token} {cs : List String} (h : Columns ts cs) :
    Columns (Token.lparen :: ts ++ [Token.rparen]) cs := by
  have hparen : Columns [.rparen] [] := fun rest => rfl
  have hgroup := h.append hparen
  rw [List.append_nil] at hgroup
  exact hgroup

/-- A single condition names its columns. -/
theorem Predicate.columns_tokens (p : Predicate) : Columns p.tokens p.columns := by
  have hword : ∀ {w : String} {ts : List Token} {cs : List String},
      keywords.contains (upper w) = true → Columns ts cs → Columns (ts ++ [.word w]) cs := by
    intro w ts cs hw h
    have happend := h.append (.keyword hw)
    rwa [List.append_nil] at happend
  have hop : ∀ o : CompareOp, Columns [.op o] [] := fun o rest => rfl
  have hcomma : Columns [.comma] [] := fun rest => rfl
  have hitems : ∀ items : List Operand,
      Columns (Token.lparen :: joinTokens Token.comma (items.map (·.tokens)) ++ [Token.rparen])
        (items.flatMap (·.columns)) := by
    intro items
    refine (Columns.join hcomma ?_).group
    rw [List.forall₂_map_left_iff, List.forall₂_map_right_iff, List.forall₂_same]
    exact fun a _ => a.columns_tokens
  cases p with
  | compare o a b =>
    have hfirst := a.columns_tokens.append (hop o)
    rw [List.append_nil] at hfirst
    exact hfirst.append b.columns_tokens
  | like ci a b =>
    cases ci <;> exact (hword (by decide +kernel) a.columns_tokens).append b.columns_tokens
  | isNull negated a =>
    cases negated with
    | false =>
      exact hword (by decide +kernel) (hword (by decide +kernel) a.columns_tokens)
    | true =>
      exact hword (by decide +kernel) (hword (by decide +kernel)
        (hword (by decide +kernel) a.columns_tokens))
  | inList negated a items =>
    cases negated with
    | false => exact (hword (by decide +kernel) a.columns_tokens).append (hitems items)
    | true =>
      exact (hword (by decide +kernel) (hword (by decide +kernel) a.columns_tokens)).append
        (hitems items)
  | between a lo hi =>
    have hlo := hword (w := "AND") (by decide +kernel)
      ((hword (w := "BETWEEN") (by decide +kernel) a.columns_tokens).append lo.columns_tokens)
    have hall := hlo.append hi.columns_tokens
    rw [List.append_assoc a.columns] at hall
    exact hall

/-- The text is read as tokens that name only columns with the property. -/
def Names (text : String) (P : String → Prop) : Prop :=
  ∃ ts cs, Reads text ts ∧ Columns ts cs ∧ ∀ c ∈ cs, P c

section Names

variable {P : String → Prop}

theorem Names.pred {p : Predicate} (h : ∀ c ∈ p.columns, P c) : Names p.text P :=
  ⟨p.tokens, p.columns, p.reads, p.columns_tokens, h⟩

/-- Parts that are joined by a separator which is no column. -/
theorem Names.join {sep : String} {t : Token}
    (hsep : ∀ {a b : String} {ts us : List Token}, Reads a ts → Reads b us →
      Reads (a ++ sep ++ b) (ts ++ t :: us)) (ht : Columns [t] []) {parts : List String}
    (h : ∀ part ∈ parts, Names part P) : Names (SqlText.join sep parts) P := by
  have hall : ∃ tss css, List.Forall₂ Reads parts tss ∧ List.Forall₂ Columns tss css ∧
      ∀ c ∈ css.flatten, P c := by
    induction parts with
    | nil => exact ⟨[], [], .nil, .nil, by simp⟩
    | cons part parts ih =>
      obtain ⟨ts, cs, hreads, hcolumns, hP⟩ := h part List.mem_cons_self
      obtain ⟨tss, css, hreadsAll, hcolumnsAll, hPs⟩ :=
        ih fun q hq => h q (List.mem_cons_of_mem _ hq)
      refine ⟨ts :: tss, cs :: css, .cons hreads hreadsAll, .cons hcolumns hcolumnsAll, ?_⟩
      rw [List.flatten_cons, List.forall_mem_append]
      exact ⟨hP, hPs⟩
  obtain ⟨tss, css, hreads, hcolumns, hP⟩ := hall
  exact ⟨_, _, Reads.join hsep hreads, Columns.join ht hcolumns, hP⟩

theorem Names.group {text : String} (h : Names text P) : Names ("(" ++ text ++ ")") P := by
  obtain ⟨ts, cs, hreads, hcolumns, hP⟩ := h
  exact ⟨_, cs, hreads.group, hcolumns.group, hP⟩

theorem Names.space {a b : String} (ha : Names a P) (hb : Names b P) :
    Names (a ++ " " ++ b) P := by
  obtain ⟨ts, cs, hreads, hcolumns, hP⟩ := ha
  obtain ⟨us, ds, hreads', hcolumns', hP'⟩ := hb
  refine ⟨ts ++ us, cs ++ ds, hreads.space hreads', hcolumns.append hcolumns', ?_⟩
  rw [List.forall_mem_append]
  exact ⟨hP, hP'⟩

theorem Names.keyword {w : String} (hw : isWord w = true)
    (hk : keywords.contains (upper w) = true) : Names w P :=
  ⟨[.word w], [], Reads.word hw, .keyword hk, by simp⟩

theorem Names.column {c : ColumnRef} (h : P c.text) : Names c.text P :=
  ⟨[.word c.text], [c.text], (Operand.column c).reads, .column c, by simpa using h⟩

/-- Nothing is named by nothing, and a blank changes nothing. -/
theorem Names.empty : Names "" P := by
  refine ⟨[], [], fun rest _ => ?_, fun rest => rfl, by simp⟩
  change lexFrom .start rest = (lexFrom .start rest).map ([] ++ ·)
  simp

theorem Names.lead {text : String} (h : Names text P) : Names (" " ++ text) P := by
  obtain ⟨ts, cs, hreads, hcolumns, hP⟩ := h
  refine ⟨ts, cs, fun rest hrest => ?_, hcolumns, hP⟩
  rw [String.toList_append, List.append_assoc]
  exact (lexFrom_space _).trans (hreads rest hrest)

theorem Names.lex {text : String} (h : Names text P) :
    ∃ ts, SqlText.lex text = some ts ∧ ∀ c ∈ columns ts, P c := by
  obtain ⟨ts, cs, hreads, hcolumns, hP⟩ := h
  refine ⟨ts, hreads.lex, ?_⟩
  rwa [hcolumns.eq]

end Names

end SqlText
