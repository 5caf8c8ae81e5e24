import FlatFileDb.Proofs.Json
import FlatFileDb.Proofs.Spelling

/-!
# Queries in print

A query is printed clause by clause, as pieces with a blank between each two: its verb, its fields and
its source, then its joins, conditions, grouping, conditions on groups, order, limit and offset. A
keyword may be printed in any of its spellings and in any case, filler words may be left out, and so
may the clauses that ask for nothing. A value is printed as it is if it is one word, or in quotes.
-/

namespace FlatFileDb

namespace Statement

/-! ### What can be printed -/

/-- Whether a character is a quote. -/
def isQuote (c : Char) : Bool :=
  c == '"' || c.toNat == 0x27

/-- Whether a character may stand in a word of a query. -/
def isPlainChar (c : Char) : Bool :=
  !Text.isBlank c && !isComparing c && !isQuote c && c != ',' && c != ';' && c != '!'

/-- Whether a word may stand in a query as a field, a column or a part of a value. -/
structure IsPlain (word : String) : Prop where
  ne_nil : word.toList ≠ []
  chars : ∀ c ∈ word.toList, isPlainChar c = true
  not_spells : ∀ keyword : Keyword, ¬keyword.Spells word

/-- Whether a word may stand in a query as a table. -/
structure IsSource (word : String) : Prop where
  isValid : Name.isValid word = true
  not_spells : ∀ keyword : Keyword, ¬keyword.Spells word

instance (word : String) : Decidable (IsPlain word) :=
  decidable_of_iff (word.toList ≠ [] ∧ word.toList.all isPlainChar = true ∧
      ∀ keyword ∈ Keyword.all, ¬keyword.Spells word)
    ⟨fun h => ⟨h.1, List.all_eq_true.1 h.2.1, fun keyword => h.2.2 keyword keyword.mem_all⟩,
      fun h => ⟨h.ne_nil, List.all_eq_true.2 h.chars, fun keyword _ => h.not_spells keyword⟩⟩

instance (word : String) : Decidable (IsSource word) :=
  decidable_of_iff (Name.isValid word = true ∧ ∀ keyword ∈ Keyword.all, ¬keyword.Spells word)
    ⟨fun h => ⟨h.1, fun keyword => h.2 keyword keyword.mem_all⟩,
      fun h => ⟨h.isValid, fun keyword _ => h.not_spells keyword⟩⟩

/-- Whether a text may stand in a query as a value: one word, or several with a blank between each
two. -/
def IsValue (value : String) : Prop :=
  ∃ words, words ≠ [] ∧ (∀ word ∈ words, IsPlain word) ∧ value = " ".intercalate words

/-- Whether conditions make up a chain, each but the last with a connector behind it. -/
def isChain : List Condition → Bool
  | [] => true
  | [condition] => condition.connector.isNone
  | condition :: next :: rest => condition.connector.isSome && isChain (next :: rest)

end Statement

open Statement

/-- Whether a query can be printed. -/
structure Query.IsPrintable (query : Query) : Prop where
  fields_ne_nil : query.fields ≠ []
  fields : ∀ field ∈ query.fields, IsPlain field
  table : IsSource query.table
  joins : ∀ join ∈ query.joins, IsSource join.table ∧ IsPlain join.left ∧ IsPlain join.right
  conditions : ∀ condition ∈ query.conditions, IsPlain condition.field ∧ IsValue condition.value
  isChain_conditions : isChain query.conditions = true
  groupBy : ∀ column, query.groupBy = some column → IsPlain column
  having : ∀ condition ∈ query.having, IsPlain condition.field ∧ IsValue condition.value
  isChain_having : isChain query.having = true
  orderBy : ∀ order, query.orderBy = some order → IsPlain order.column
  limit : -2 ^ 63 ≤ query.limit ∧ query.limit < 2 ^ 63
  offset : -2 ^ 63 ≤ query.offset ∧ query.offset < 2 ^ 63

namespace Statement

/-! ### How it is printed -/

/-- A filler word, or none. -/
inductive PrintsFiller (keyword : Keyword) : List String → Prop
  | nothing : PrintsFiller keyword []
  | word {word : String} (h : keyword.Spells word) : PrintsFiller keyword [word]

/-- No filler word, where there is none. -/
inductive PrintsNothing : List String → Prop
  | nothing : PrintsNothing []

/-- The keyword that a kind of join starts with. -/
def joinKeyword : JoinKind → Keyword
  | .inner => .inner
  | .left => .left
  | .right => .right
  | .full => .full

inductive PrintsJoin : Join → List String → Prop
  | inner {table left right word on : String} (hword : Keyword.join.Spells word)
      (hon : Keyword.onColumn.Spells on) :
      PrintsJoin ⟨.inner, table, left, right⟩ [word, table, on, left, "=", right]
  | ofKind {kind : JoinKind} {table left right first word on : String}
      (hfirst : (joinKeyword kind).Spells first) (hword : Keyword.join.Spells word)
      (hon : Keyword.onColumn.Spells on) :
      PrintsJoin ⟨kind, table, left, right⟩ [first, word, table, on, left, "=", right]

/-- An operator is printed as its symbol; the one that is a word has several spellings. -/
def PrintsOperator (operator : Operator) (piece : String) : Prop :=
  match operator with
  | .contains => Keyword.contains.Spells piece
  | _ => piece = operator.symbol

def PrintsConnector : Connector → String → Prop
  | .and, piece => Keyword.both.Spells piece
  | .or, piece => Keyword.either.Spells piece

/-- A text between two quotes. -/
def quoted (quote : Char) (text : String) : String :=
  String.ofList (quote :: (text.toList ++ [quote]))

inductive PrintsValue : String → String → Prop
  | bare {word : String} (h : IsPlain word) : PrintsValue word word
  | quoted {quote : Char} {value : String} (hquote : isQuote quote = true) :
      PrintsValue value (quoted quote value)

inductive PrintsChain : List Condition → List String → Prop
  | last {field symbol value piece : String} {operator : Operator}
      (hoperator : PrintsOperator operator symbol) (hvalue : PrintsValue value piece) :
      PrintsChain [⟨field, operator, value, none⟩] [field, symbol, piece]
  | more {field symbol value piece word : String} {operator : Operator} {connector : Connector}
      {rest : List Condition} {pieces : List String} (hoperator : PrintsOperator operator symbol)
      (hvalue : PrintsValue value piece) (hword : PrintsConnector connector word)
      (hrest : PrintsChain rest pieces) :
      PrintsChain (⟨field, operator, value, some connector⟩ :: rest)
        (field :: symbol :: piece :: word :: pieces)

/-- Conditions behind the keyword of their clause, which may have a filler word. -/
inductive PrintsConditions (keyword : Keyword) (filler : List String → Prop) :
    List Condition → List String → Prop
  | nothing : PrintsConditions keyword filler [] []
  | chain {word : String} {fill : List String} {conditions : List Condition} {pieces : List String}
      (hword : keyword.Spells word) (hfill : filler fill) (h : PrintsChain conditions pieces) :
      PrintsConditions keyword filler conditions (word :: (fill ++ pieces))

inductive PrintsGroup : Option String → List String → Prop
  | nothing : PrintsGroup none []
  | column {word column : String} {fill : List String} (hword : Keyword.group.Spells word)
      (hfill : PrintsFiller .byWord fill) : PrintsGroup (some column) (word :: (fill ++ [column]))

inductive PrintsOrder : Option OrderBy → List String → Prop
  | nothing : PrintsOrder none []
  | ascending {word column : String} {fill direction : List String}
      (hword : Keyword.order.Spells word) (hfill : PrintsFiller .byWord fill)
      (hdirection : PrintsFiller .ascending direction) :
      PrintsOrder (some ⟨column, false⟩) (word :: (fill ++ column :: direction))
  | descending {word column direction : String} {fill : List String}
      (hword : Keyword.order.Spells word) (hfill : PrintsFiller .byWord fill)
      (hdirection : Keyword.descending.Spells direction) :
      PrintsOrder (some ⟨column, true⟩) (word :: (fill ++ [column, direction]))

/-- A number behind its keyword; it may be left out if it is what holds without it. -/
inductive PrintsNumber (keyword : Keyword) (standard : Int) : Int → List String → Prop
  | nothing : PrintsNumber keyword standard standard []
  | number {word : String} (n : Int) (hword : keyword.Spells word) :
      PrintsNumber keyword standard n [word, String.ofList (Number.integerText n)]

end Statement

/-- The pieces that a query may be printed as. -/
inductive Query.Prints (query : Query) : List String → Prop
  | pieces {verb source : String} {joins : List (List String)}
      {conditions group having order limit offset : List String}
      (hverb : Keyword.select.Spells verb) (hsource : Keyword.source.Spells source)
      (hjoins : List.Forall₂ PrintsJoin query.joins joins)
      (hconditions : PrintsConditions .filter PrintsNothing query.conditions conditions)
      (hgroup : PrintsGroup query.groupBy group)
      (hhaving : PrintsConditions .having (PrintsFiller .havingFiller) query.having having)
      (horder : PrintsOrder query.orderBy order)
      (hlimit : PrintsNumber .limit (-1) query.limit limit)
      (hoffset : PrintsNumber .offset 0 query.offset offset) :
      Prints query (verb :: ", ".intercalate query.fields :: source :: query.table ::
        (joins.flatten ++ (conditions ++ (group ++ (having ++ (order ++ (limit ++ offset)))))))

namespace Statement

/-! ### The tokens of the pieces -/

variable {word : String} {words : List String} {quote c : Char}

theorem isQuote_cases (h : isQuote quote = true) : quote = '"' ∨ quote = Char.ofNat 0x27 := by
  rw [isQuote, Bool.or_eq_true, beq_iff_eq, beq_iff_eq] at h
  exact h.imp_right fun hcode => by rw [← hcode, Char.ofNat_toNat]

theorem isQuote_plain (h : isQuote quote = true) :
    Text.isBlank quote = false ∧ isComparing quote = false := by
  rcases isQuote_cases h with rfl | rfl <;> decide

/-- A word in which a quote or a comma stands is no keyword. -/
theorem not_spells_of_mem (h : isQuote c = true ∨ c = ',') (hc : c ∈ word.toList)
    (keyword : Keyword) : ¬keyword.Spells word := by
  have hother : Text.upperChar c = [c] ∧ Keyword.isCapital c = false := by
    rcases h with h | rfl
    · rcases isQuote_cases h with rfl | rfl <;> decide
    · decide
  exact fun hspells => hspells.not_mem hother.1 hother.2 hc

namespace IsPlain

theorem isBlank (h : IsPlain word) (hc : c ∈ word.toList) : Text.isBlank c = false := by
  have hplain := h.chars c hc
  simp only [isPlainChar, Bool.and_eq_true, Bool.not_eq_true'] at hplain
  exact hplain.1.1.1.1.1

theorem isComparing (h : IsPlain word) (hc : c ∈ word.toList) : isComparing c = false := by
  have hplain := h.chars c hc
  simp only [isPlainChar, Bool.and_eq_true, Bool.not_eq_true'] at hplain
  exact hplain.1.1.1.1.2

theorem isQuote (h : IsPlain word) (hc : c ∈ word.toList) : isQuote c = false := by
  have hplain := h.chars c hc
  simp only [isPlainChar, Bool.and_eq_true, Bool.not_eq_true'] at hplain
  exact hplain.1.1.1.2

theorem not_comma_mem (h : IsPlain word) : ',' ∉ word.toList :=
  fun hc => absurd (h.chars _ hc) (by decide)

theorem not_semicolon_mem (h : IsPlain word) : ';' ∉ word.toList :=
  fun hc => absurd (h.chars _ hc) (by decide)

theorem tokens (h : IsPlain word) : tokens word.toList = [word] :=
  (tokens_of_plain (fun _ hc => h.isBlank hc) h.ne_nil fun _ hc => h.isComparing hc).trans
    (by rw [String.ofList_toList])

theorem accepts (h : IsPlain word) (keyword : Keyword) : keyword.accepts word = false :=
  Keyword.accepts_eq_false (h.not_spells keyword)

end IsPlain

theorem IsPlain.endsStatement (h : IsPlain word) : EndsStatement word.toList :=
  endsStatement_of_tokens h.tokens h.not_semicolon_mem

theorem IsSource.tokens (h : IsSource word) : Statement.tokens word.toList = [word] :=
  tokens_of_isValid h.isValid

/-- The fields of a query, each but the last with a comma behind it. -/
def listed : List String → List String
  | [] => []
  | [field] => [field]
  | field :: next :: rest => (field ++ ",") :: listed (next :: rest)

theorem joinTokens_listed (fields : List String) :
    joinTokens (listed fields) = (", ".intercalate fields).toList := by
  fun_induction listed fields with
  | case1 => rfl
  | case2 field => rw [joinTokens_singleton, String.intercalate_singleton]
  | case3 field next rest ih =>
    obtain ⟨first, behind, hlisted⟩ : ∃ first behind, listed (next :: rest) = first :: behind := by
      cases rest <;> exact ⟨_, _, rfl⟩
    rw [hlisted, joinTokens_cons_cons, ← hlisted, ih, String.intercalate_cons_cons]
    simp

theorem tokens_listed {fields : List String} (h : ∀ field ∈ fields, IsPlain field) :
    tokens (", ".intercalate fields).toList = listed fields := by
  have hwords : ∀ word ∈ listed fields, tokens word.toList = [word] := by
    fun_induction listed fields with
    | case1 => simp
    | case2 field => simpa using (h field (by simp)).tokens
    | case3 field next rest ih =>
      intro word hword
      rcases List.mem_cons.1 hword with rfl | hword
      · have hfield := h field (by simp)
        refine (tokens_of_plain ?_ ?_ ?_).trans (by rw [String.ofList_toList])
        · intro c hc
          rw [String.toList_append, List.mem_append] at hc
          rcases hc with hc | hc
          · exact hfield.isBlank hc
          · obtain rfl : c = ',' := by simpa using hc
            decide
        · simp
        · intro c hc
          rw [String.toList_append, List.mem_append] at hc
          rcases hc with hc | hc
          · exact hfield.isComparing hc
          · obtain rfl : c = ',' := by simpa using hc
            decide
      · exact ih (fun other hother => h other (List.mem_cons_of_mem field hother)) word hword
  rw [← joinTokens_listed, tokens_joinTokens, tokensOf_of_tokens hwords]

/-- No keyword stands among the fields. -/
theorem not_spells_listed {fields : List String} (h : ∀ field ∈ fields, IsPlain field)
    (hword : word ∈ listed fields) (keyword : Keyword) : ¬keyword.Spells word := by
  fun_induction listed fields with
  | case1 => exact absurd hword (by simp)
  | case2 field =>
    obtain rfl := List.mem_singleton.1 hword
    exact (h word (by simp)).not_spells keyword
  | case3 field next rest ih =>
    rcases List.mem_cons.1 hword with rfl | hword
    · exact not_spells_of_mem (.inr rfl) (by simp) keyword
    · exact ih (fun other hother => h other (List.mem_cons_of_mem field hother)) hword

/-- Words with a quote behind the last one. -/
def closed (quote : Char) : List String → List String
  | [] => []
  | [word] => [word.push quote]
  | word :: next :: rest => word :: closed quote (next :: rest)

/-- Words with quotes around them. -/
def enclosed (quote : Char) (words : List String) : List String :=
  match closed quote words with
  | [] => []
  | first :: rest => (String.singleton quote ++ first) :: rest

theorem exists_closed (quote : Char) (word : String) (rest : List String) :
    ∃ first behind, closed quote (word :: rest) = first :: behind := by
  cases rest <;> exact ⟨_, _, rfl⟩

theorem joinTokens_closed (quote : Char) (hne : words ≠ []) :
    joinTokens (closed quote words) = joinTokens words ++ [quote] := by
  fun_induction closed quote words with
  | case1 => exact absurd rfl hne
  | case2 word => rw [joinTokens_singleton, joinTokens_singleton, String.toList_push]
  | case3 word next rest ih =>
    obtain ⟨first, behind, hclosed⟩ := exists_closed quote next rest
    rw [hclosed, joinTokens_cons_cons, ← hclosed, ih (by simp), joinTokens_cons_cons,
      List.append_assoc]
    rfl

theorem joinTokens_enclosed (quote : Char) (hne : words ≠ []) :
    joinTokens (enclosed quote words) = quote :: (joinTokens words ++ [quote]) := by
  obtain ⟨word, rest, rfl⟩ := List.exists_cons_of_ne_nil hne
  rw [← joinTokens_closed quote hne, enclosed]
  obtain ⟨first, behind, hclosed⟩ := exists_closed quote word rest
  rw [hclosed]
  cases behind with
  | nil => rw [joinTokens_singleton, joinTokens_singleton, String.toList_append]; simp
  | cons next behind => rw [joinTokens_cons_cons, joinTokens_cons_cons, String.toList_append]; simp

/-- Whether a word may stand in a text with quotes around it. -/
structure IsInside (word : String) : Prop where
  ne_nil : word.toList ≠ []
  chars : ∀ c ∈ word.toList, isPlainChar c = true ∨ isQuote c = true
  not_spells : ∀ keyword : Keyword, ¬keyword.Spells word

theorem IsPlain.isInside (h : IsPlain word) : IsInside word :=
  ⟨h.ne_nil, fun c hc => .inl (h.chars c hc), h.not_spells⟩

namespace IsInside

theorem tokens (h : IsInside word) : tokens word.toList = [word] := by
  have hchar {c : Char} (hc : c ∈ word.toList) :
      Text.isBlank c = false ∧ isComparing c = false := by
    rcases h.chars c hc with hplain | hquote
    · simp only [isPlainChar, Bool.and_eq_true, Bool.not_eq_true'] at hplain
      exact hplain.1.1.1.1
    · exact isQuote_plain hquote
  exact (tokens_of_plain (fun _ hc => (hchar hc).1) h.ne_nil fun _ hc => (hchar hc).2).trans
    (by rw [String.ofList_toList])

theorem of_closed (hquote : isQuote quote = true) (hwords : ∀ word ∈ words, IsPlain word) :
    ∀ word ∈ closed quote words, IsInside word := by
  fun_induction closed quote words with
  | case1 => simp
  | case2 plain =>
    rw [List.forall_mem_singleton]
    refine ⟨by simp, fun c hc => ?_, not_spells_of_mem (.inl hquote) (by simp)⟩
    rw [String.toList_push, List.mem_append, List.mem_singleton] at hc
    rcases hc with hc | rfl
    · exact .inl ((hwords plain (by simp)).chars c hc)
    · exact .inr hquote
  | case3 plain next rest ih =>
    rw [List.forall_mem_cons]
    exact ⟨(hwords plain (by simp)).isInside,
      ih fun other hother => hwords other (List.mem_cons_of_mem plain hother)⟩

theorem of_enclosed (hquote : isQuote quote = true) (hwords : ∀ word ∈ words, IsPlain word) :
    ∀ word ∈ enclosed quote words, IsInside word := by
  have hclosed := of_closed hquote hwords
  unfold enclosed
  cases hcase : closed quote words with
  | nil => simp
  | cons first rest =>
    rw [hcase, List.forall_mem_cons] at hclosed
    rw [List.forall_mem_cons]
    refine ⟨⟨by simp, fun c hc => ?_, not_spells_of_mem (.inl hquote) (by simp)⟩, hclosed.2⟩
    rw [String.toList_append, List.mem_append, String.toList_singleton, List.mem_singleton] at hc
    rcases hc with rfl | hc
    · exact .inr hquote
    · exact hclosed.1.chars c hc

end IsInside

theorem tokens_quoted (hquote : isQuote quote = true) (hne : words ≠ [])
    (hwords : ∀ word ∈ words, IsPlain word) :
    tokens (quoted quote (" ".intercalate words)).toList = enclosed quote words := by
  have hall := tokensOf_of_tokens fun word hword =>
    (IsInside.of_enclosed hquote hwords word hword).tokens
  rw [quoted, String.toList_ofList, ← joinTokens, ← joinTokens_enclosed quote hne, tokens_joinTokens,
    hall]

/-- The digits of a number may stand in a name. -/
theorem eq_minus_or_isNameChar {n : Int} (h : c ∈ Number.integerText n) :
    c = '-' ∨ Text.isNameChar c = true := by
  have hdigit (hc : c ∈ Number.decimalDigits n.natAbs) : Text.isNameChar c = true := by
    rw [Text.isNameChar, Char.isAlphanum, Number.isDigit_of_mem_decimalDigits hc]
    simp
  rw [Number.integerText] at h
  split at h
  · exact (List.mem_cons.1 h).imp_right hdigit
  · exact .inr (hdigit h)

theorem tokens_integerText (n : Int) :
    tokens (String.ofList (Number.integerText n)).toList = [String.ofList (Number.integerText n)] := by
  have hplain : ∀ c ∈ Number.integerText n, Text.isBlank c = false ∧ isComparing c = false := by
    intro c hc
    rcases eq_minus_or_isNameChar hc with rfl | hdigit
    · decide
    · exact ⟨Name.isBlank_eq_false hdigit, isComparing_of_isNameChar hdigit⟩
  rw [String.toList_ofList]
  refine tokens_of_plain (fun c hc => (hplain c hc).1) ?_ fun c hc => (hplain c hc).2
  rw [Number.integerText]
  split
  · simp
  · exact Number.decimalDigits_ne_nil _

/-! ### The ends of the pieces -/

/-- Whether each of some pieces may end a statement. -/
def AllEnd (pieces : List String) : Prop :=
  ∀ piece ∈ pieces, EndsStatement piece.toList

variable {pieces : List String}

theorem allEnd_nil : AllEnd [] := by
  simp [AllEnd]

theorem AllEnd.cons {piece : String} (hpiece : EndsStatement piece.toList) (h : AllEnd pieces) :
    AllEnd (piece :: pieces) := by
  rw [AllEnd, List.forall_mem_cons]
  exact ⟨hpiece, h⟩

theorem AllEnd.append {more : List String} (h : AllEnd pieces) (hmore : AllEnd more) :
    AllEnd (pieces ++ more) := by
  rw [AllEnd, List.forall_mem_append]
  exact ⟨h, hmore⟩

theorem Keyword.Spells.endsStatement {keyword : Keyword} (h : keyword.Spells word) :
    EndsStatement word.toList :=
  endsStatement_of_tokens h.tokens (h.not_mem (by decide) (by decide))

theorem IsSource.endsStatement (h : IsSource word) : EndsStatement word.toList :=
  endsStatement_of_tokens h.tokens (Name.not_mem h.isValid (by decide))

theorem endsStatement_listed {fields : List String} (hne : fields ≠ [])
    (h : ∀ field ∈ fields, IsPlain field) : EndsStatement (", ".intercalate fields).toList := by
  have hend : ∀ word ∈ listed fields, EndsStatement word.toList := by
    fun_induction listed fields with
    | case1 => simp
    | case2 field => simpa using (h field (by simp)).endsStatement
    | case3 field next rest ih =>
      rw [List.forall_mem_cons]
      exact ⟨⟨',', by simp, by decide, by decide⟩,
        ih (by simp) fun other hother => h other (List.mem_cons_of_mem field hother)⟩
  rw [← joinTokens_listed]
  refine endsStatement_joinTokens ?_ hend
  fun_cases listed fields with
  | case1 => exact absurd rfl hne
  | case2 | case3 => simp

theorem endsStatement_value {value piece : String} (h : PrintsValue value piece) :
    EndsStatement piece.toList := by
  cases h with
  | bare hplain => exact hplain.endsStatement
  | quoted hquote =>
    refine ⟨_, by rw [quoted, String.toList_ofList, List.getLast?_cons, List.getLast?_append]; rfl,
      (isQuote_plain hquote).1, ?_⟩
    rintro rfl
    exact absurd hquote (by decide)

theorem allEnd_filler {keyword : Keyword} (h : PrintsFiller keyword pieces) : AllEnd pieces := by
  cases h with
  | nothing => exact allEnd_nil
  | word hword => exact .cons hword.endsStatement allEnd_nil

theorem endsStatement_operator {operator : Operator} (h : PrintsOperator operator word) :
    EndsStatement word.toList := by
  cases operator with
  | contains =>
    have hspells : Keyword.contains.Spells word := h
    exact hspells.endsStatement
  | _ =>
    obtain rfl := h
    exact ⟨_, rfl, by decide, by decide⟩

theorem endsStatement_connector {connector : Connector} (h : PrintsConnector connector word) :
    EndsStatement word.toList := by
  cases connector with
  | and =>
    have hspells : Keyword.both.Spells word := h
    exact hspells.endsStatement
  | or =>
    have hspells : Keyword.either.Spells word := h
    exact hspells.endsStatement

theorem allEnd_chain {conditions : List Condition} (h : PrintsChain conditions pieces)
    (hplain : ∀ condition ∈ conditions, IsPlain condition.field) : AllEnd pieces := by
  induction h with
  | last hoperator hvalue =>
    exact .cons (hplain _ List.mem_cons_self).endsStatement <| .cons (endsStatement_operator hoperator) <|
      .cons (endsStatement_value hvalue) allEnd_nil
  | more hoperator hvalue hword hrest ih =>
    exact .cons (hplain _ List.mem_cons_self).endsStatement <| .cons (endsStatement_operator hoperator) <|
      .cons (endsStatement_value hvalue) <| .cons (endsStatement_connector hword) <|
      ih fun condition hmem => hplain condition (List.mem_cons_of_mem _ hmem)

theorem allEnd_conditions {keyword : Keyword} {filler : List String → Prop}
    {conditions : List Condition} (h : PrintsConditions keyword filler conditions pieces)
    (hfiller : ∀ fill, filler fill → AllEnd fill)
    (hplain : ∀ condition ∈ conditions, IsPlain condition.field) : AllEnd pieces := by
  cases h with
  | nothing => exact allEnd_nil
  | chain hword hfill hchain =>
    exact .cons hword.endsStatement (.append (hfiller _ hfill) (allEnd_chain hchain hplain))

theorem allEnd_join {join : Join} (h : PrintsJoin join pieces) (hsource : IsSource join.table)
    (hplain : IsPlain join.left ∧ IsPlain join.right) : AllEnd pieces := by
  have hequal : EndsStatement "=".toList := ⟨'=', rfl, by decide, by decide⟩
  cases h with
  | inner hword hon =>
    exact .cons hword.endsStatement <| .cons hsource.endsStatement <| .cons hon.endsStatement <|
      .cons hplain.1.endsStatement <| .cons hequal <| .cons hplain.2.endsStatement allEnd_nil
  | ofKind hfirst hword hon =>
    exact .cons hfirst.endsStatement <| .cons hword.endsStatement <| .cons hsource.endsStatement <|
      .cons hon.endsStatement <| .cons hplain.1.endsStatement <| .cons hequal <|
      .cons hplain.2.endsStatement allEnd_nil

theorem allEnd_group {group : Option String} (h : PrintsGroup group pieces)
    (hplain : ∀ column, group = some column → IsPlain column) : AllEnd pieces := by
  cases h with
  | nothing => exact allEnd_nil
  | column hword hfill =>
    exact .cons hword.endsStatement <| .append (allEnd_filler hfill) <|
      .cons (hplain _ rfl).endsStatement allEnd_nil

theorem allEnd_order {order : Option OrderBy} (h : PrintsOrder order pieces)
    (hplain : ∀ key, order = some key → IsPlain key.column) : AllEnd pieces := by
  cases h with
  | nothing => exact allEnd_nil
  | ascending hword hfill hdirection =>
    have hcolumn := (hplain _ rfl).endsStatement
    exact .cons hword.endsStatement <| .append (allEnd_filler hfill) <|
      .cons hcolumn (allEnd_filler hdirection)
  | descending hword hfill hdirection =>
    have hcolumn := (hplain _ rfl).endsStatement
    exact .cons hword.endsStatement <| .append (allEnd_filler hfill) <|
      .cons hcolumn <| .cons hdirection.endsStatement allEnd_nil

theorem allEnd_number {keyword : Keyword} {standard n : Int}
    (h : PrintsNumber keyword standard n pieces) : AllEnd pieces := by
  cases h with
  | nothing => exact allEnd_nil
  | number n hword =>
    refine .cons hword.endsStatement (.cons (endsStatement_of_tokens (tokens_integerText n) ?_) allEnd_nil)
    rw [String.toList_ofList]
    intro hmem
    rcases eq_minus_or_isNameChar hmem with h | h
    · exact absurd h (by decide)
    · exact absurd h (by decide)

/-! ### Everything can be printed -/

theorem exists_printsOperator (operator : Operator) : ∃ piece, PrintsOperator operator piece := by
  cases operator with
  | contains => exact ⟨_, Keyword.contains.spells_canonical⟩
  | _ => exact ⟨_, rfl⟩

theorem exists_printsConnector (connector : Connector) : ∃ piece, PrintsConnector connector piece := by
  cases connector with
  | and => exact ⟨_, Keyword.both.spells_canonical⟩
  | or => exact ⟨_, Keyword.either.spells_canonical⟩

theorem exists_printsChain {conditions : List Condition} (hne : conditions ≠ [])
    (h : isChain conditions = true) : ∃ pieces, PrintsChain conditions pieces := by
  have hquote : isQuote '"' = true := rfl
  fun_induction isChain conditions with
  | case1 => exact absurd rfl hne
  | case2 condition =>
    obtain ⟨field, operator, value, connector⟩ := condition
    obtain rfl := Option.isNone_iff_eq_none.1 h
    obtain ⟨symbol, hsymbol⟩ := exists_printsOperator operator
    exact ⟨_, .last hsymbol (.quoted hquote)⟩
  | case3 condition next rest ih =>
    obtain ⟨field, operator, value, connector⟩ := condition
    rw [Bool.and_eq_true, Option.isSome_iff_exists] at h
    obtain ⟨⟨connector, rfl⟩, hrest⟩ := h
    obtain ⟨symbol, hsymbol⟩ := exists_printsOperator operator
    obtain ⟨word, hword⟩ := exists_printsConnector connector
    obtain ⟨pieces, hpieces⟩ := ih (by simp) hrest
    exact ⟨_, .more hsymbol (.quoted hquote) hword hpieces⟩

theorem exists_printsConditions (keyword : Keyword) {filler : List String → Prop}
    (hfiller : filler []) {conditions : List Condition} (h : isChain conditions = true) :
    ∃ pieces, PrintsConditions keyword filler conditions pieces := by
  by_cases hnone : conditions = []
  · exact ⟨[], hnone ▸ .nothing⟩
  · obtain ⟨pieces, hpieces⟩ := exists_printsChain hnone h
    exact ⟨_, .chain keyword.spells_canonical hfiller hpieces⟩

theorem exists_printsJoins (joins : List Join) :
    ∃ printed, List.Forall₂ PrintsJoin joins printed := by
  induction joins with
  | nil => exact ⟨[], .nil⟩
  | cons join rest ih =>
    obtain ⟨printed, hprinted⟩ := ih
    exact ⟨_, .cons (.ofKind (joinKeyword join.kind).spells_canonical Keyword.join.spells_canonical
      Keyword.onColumn.spells_canonical) hprinted⟩

theorem exists_printsGroup (group : Option String) : ∃ pieces, PrintsGroup group pieces := by
  cases group with
  | none => exact ⟨[], .nothing⟩
  | some column => exact ⟨_, .column Keyword.group.spells_canonical .nothing⟩

theorem exists_printsOrder (order : Option OrderBy) : ∃ pieces, PrintsOrder order pieces :=
  match order with
  | none => ⟨[], .nothing⟩
  | some ⟨_, false⟩ => ⟨_, .ascending Keyword.order.spells_canonical .nothing .nothing⟩
  | some ⟨_, true⟩ =>
    ⟨_, .descending Keyword.order.spells_canonical .nothing Keyword.descending.spells_canonical⟩

end Statement

theorem Query.Prints.allEnd {query : Query} {pieces : List String} (h : query.Prints pieces)
    (hquery : query.IsPrintable) : AllEnd pieces := by
  obtain ⟨hverb, hsource, hjoins, hconditions, hgroup, hhaving, horder, hlimit, hoffset⟩ := h
  have hjoined : ∀ {joins : List Join} {printed : List (List String)},
      List.Forall₂ PrintsJoin joins printed →
      (∀ join ∈ joins, IsSource join.table ∧ IsPlain join.left ∧ IsPlain join.right) →
      AllEnd printed.flatten := by
    intro joins printed hjoins hplain
    induction hjoins with
    | nil => exact allEnd_nil
    | cons hjoin hrest ih =>
      obtain ⟨hsource, hboth⟩ := hplain _ List.mem_cons_self
      exact .append (allEnd_join hjoin hsource hboth)
        (ih fun other hother => hplain other (List.mem_cons_of_mem _ hother))
  exact .cons hverb.endsStatement <|
    .cons (endsStatement_listed hquery.fields_ne_nil hquery.fields) <|
    .cons hsource.endsStatement <| .cons hquery.table.endsStatement <|
    .append (hjoined hjoins hquery.joins) <|
    .append (allEnd_conditions hconditions (fun _ hnothing => hnothing.casesOn allEnd_nil)
      fun condition hmem =>
      (hquery.conditions condition hmem).1) <|
    .append (allEnd_group hgroup hquery.groupBy) <|
    .append (allEnd_conditions hhaving (fun _ => allEnd_filler) fun condition hmem =>
      (hquery.having condition hmem).1) <|
    .append (allEnd_order horder hquery.orderBy) <| .append (allEnd_number hlimit) (allEnd_number hoffset)

theorem Query.exists_prints {query : Query} (hquery : query.IsPrintable) :
    ∃ pieces, query.Prints pieces := by
  obtain ⟨joins, hjoins⟩ := exists_printsJoins query.joins
  obtain ⟨conditions, hconditions⟩ :=
    exists_printsConditions .filter PrintsNothing.nothing hquery.isChain_conditions
  obtain ⟨group, hgroup⟩ := exists_printsGroup query.groupBy
  obtain ⟨having, hhaving⟩ := exists_printsConditions .having PrintsFiller.nothing hquery.isChain_having
  obtain ⟨order, horder⟩ := exists_printsOrder query.orderBy
  exact ⟨_, .pieces Keyword.select.spells_canonical Keyword.source.spells_canonical hjoins hconditions
    hgroup hhaving horder (.number _ Keyword.limit.spells_canonical)
    (.number _ Keyword.offset.spells_canonical)⟩

end FlatFileDb
