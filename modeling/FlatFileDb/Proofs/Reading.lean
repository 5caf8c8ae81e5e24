import FlatFileDb.Proofs.Printing
import FlatFileDb.Proofs.Statement

/-!
# Printed queries are read back

Behind the source of a query the parser goes on clause by clause, and a clause ends where a word starts
the next one. So each printed clause can be read by itself, with any tokens behind it that start a
clause: it leaves these tokens and writes what was printed into the query. Put one behind the other,
the clauses give back the whole query.
-/

namespace FlatFileDb

namespace Statement

variable {cursor : Cursor} {keyword : Keyword} {token word value piece : String}
  {rest words pieces : List String} {quote : Char}

namespace Cursor

theorem left_advance (n : Nat) (cursor : Cursor) : (cursor.advance n).left = cursor.left.drop n := rfl

theorem sees_of_left (h : cursor.left = token :: rest) (keyword : Keyword) :
    cursor.sees keyword = keyword.accepts token := by
  rw [sees, h]

theorem token_of_left (h : cursor.left = token :: rest) (what : String) :
    cursor.token what = .ok (token, cursor.advance 1) := by
  rw [Cursor.token, h]

theorem expect_of_left (h : cursor.left = token :: rest) (hspells : keyword.Spells token) :
    cursor.expect keyword = .ok (cursor.advance 1) := by
  rw [expect, h]
  exact if_pos hspells.accepts

theorem name_of_left (h : cursor.left = token :: rest) (hvalid : Name.isValid token = true)
    (what : String) : cursor.name what = .ok (token, cursor.advance 1) := by
  rw [name, token_of_left h]
  exact if_pos hvalid

theorem field_of_left (h : cursor.left = token :: rest) (hplain : IsPlain token) (what : String) :
    cursor.field what = .ok (token, cursor.advance 1) := by
  have hstart : ¬Keyword.startsClause token = true := by
    rw [Keyword.startsClause, List.any_eq_true]
    rintro ⟨other, -, haccepts⟩
    exact hplain.not_spells other (Keyword.accepts_iff.1 haccepts)
  rw [field, token_of_left h]
  exact if_neg hstart

theorem sees_eq_false (h : ∀ token ∈ cursor.left.head?, keyword.accepts token = false) :
    cursor.sees keyword = false := by
  cases hleft : cursor.left with
  | nil => rw [sees, hleft]
  | cons token rest => rw [sees_of_left hleft, h token (by rw [hleft]; rfl)]

/-- A filler word is passed over if it stands there. -/
theorem left_skip {fill : List String} (hfill : PrintsFiller keyword fill)
    (h : cursor.left = tokensOf fill ++ rest)
    (hnext : ∀ token ∈ rest.head?, keyword.accepts token = false) :
    (cursor.skip keyword).left = rest := by
  cases hfill with
  | nothing =>
    have hleft : cursor.left = rest := h
    rw [skip, sees_eq_false (hleft ▸ hnext), if_neg (by simp), hleft]
  | word hword =>
    rw [tokensOf_cons, hword.tokens] at h
    rw [skip, sees_of_left h, hword.accepts, if_pos rfl, left_advance, h]
    rfl

end Cursor

/-! ### Values -/

theorem unquote_quoted (hquote : isQuote quote = true) (s : List Char) :
    unquote (quote :: (s ++ [quote])) = s := by
  rw [isQuote] at hquote
  rw [unquote, List.head?_cons, List.getLast?_cons, List.getLast?_append]
  simp [hquote]

theorem unquote_of_plain (h : IsPlain word) : unquoteText word = word := by
  obtain ⟨first, behind, hword⟩ := List.exists_cons_of_ne_nil h.ne_nil
  have hfirst : isQuote first = false := h.isQuote (by simp [hword])
  have hhead : word.toList.head? = some first := by rw [hword]; rfl
  have hlast := List.getLast?_eq_some_getLast h.ne_nil
  rw [isQuote] at hfirst
  rw [unquoteText, unquote, hhead, hlast]
  dsimp only
  rw [hfirst, Bool.and_false, if_neg (by simp), String.ofList_toList]

theorem closes_of_plain (h : IsPlain word) (hquote : isQuote quote = true) :
    closes quote word = false := by
  rw [closes, List.getLast?_eq_some_getLast h.ne_nil, beq_eq_false_iff_ne]
  intro hlast
  have hmem := h.isQuote (List.getLast_mem h.ne_nil)
  rw [Option.some.inj hlast, hquote] at hmem
  exact absurd hmem (by simp)

/-- The closing quote is that of the last word. -/
theorem upToClosing_closed (hquote : isQuote quote = true) (hne : words ≠ [])
    (hwords : ∀ word ∈ words, IsPlain word) (rest : List String) :
    upToClosing quote (closed quote words ++ rest) = some (closed quote words, rest) := by
  fun_induction closed quote words with
  | case1 => exact absurd rfl hne
  | case2 word =>
    have hcloses : closes quote (word.push quote) = true := by
      rw [closes, String.toList_push, List.getLast?_append]
      simp
    rw [List.singleton_append, upToClosing, if_pos hcloses]
  | case3 word next behind ih =>
    rw [List.cons_append, upToClosing, closes_of_plain (hwords word (by simp)) hquote,
      if_neg (by simp), ih (by simp) fun other hother =>
        hwords other (List.mem_cons_of_mem word hother)]
    rfl

/-- A word with quotes on both sides opens nothing. -/
theorem openQuote?_closed (quote : Char) (word : String) :
    openQuote? (String.singleton quote ++ word.push quote) = none := by
  have hcloses : closes quote (String.singleton quote ++ word.push quote) = true := by
    rw [closes, String.toList_append, String.toList_push, List.getLast?_append,
      List.getLast?_append]
    simp
  rw [openQuote?, String.toList_append, String.toList_singleton, String.toList_push,
    List.singleton_append]
  dsimp only
  rw [hcloses]
  simp

theorem openQuote?_of_plain (hquote : isQuote quote = true) (h : IsPlain word) :
    openQuote? (String.singleton quote ++ word) = some quote := by
  have hcloses : closes quote (String.singleton quote ++ word) = false := by
    have hplain := closes_of_plain h hquote
    rw [closes, List.getLast?_eq_some_getLast h.ne_nil] at hplain
    rw [closes, String.toList_append, List.getLast?_append,
      List.getLast?_eq_some_getLast h.ne_nil]
    exact hplain
  rw [isQuote] at hquote
  rw [openQuote?, String.toList_append, String.toList_singleton, List.singleton_append]
  dsimp only
  rw [hquote, hcloses]
  simp

/-- A text in quotes is read as a value up to its closing quote. -/
theorem literal_enclosed (hquote : isQuote quote = true) (hne : words ≠ [])
    (hwords : ∀ word ∈ words, IsPlain word) (rest : List String) :
    literal (enclosed quote words ++ rest) = .ok (" ".intercalate words, rest) := by
  have hunquote : String.ofList (unquote (joinTokens (enclosed quote words)))
      = " ".intercalate words := by
    rw [joinTokens_enclosed quote hne, unquote_quoted hquote, joinTokens, String.ofList_toList]
  obtain ⟨word, behind, rfl⟩ := List.exists_cons_of_ne_nil hne
  cases behind with
  | nil =>
    change literal ((String.singleton quote ++ word.push quote) :: rest) = _
    rw [literal, openQuote?_closed]
    dsimp only
    rw [unquoteText, ← hunquote]
    simp [enclosed, closed, joinTokens_singleton]
  | cons next behind =>
    change literal ((String.singleton quote ++ word) :: (closed quote (next :: behind) ++ rest)) = _
    rw [literal, openQuote?_of_plain hquote (hwords word (by simp))]
    dsimp only
    rw [upToClosing_closed hquote (by simp) fun other hother =>
      hwords other (List.mem_cons_of_mem word hother)]
    dsimp only
    rw [← hunquote]
    rfl

theorem literal_of_prints (h : PrintsValue value piece) (hvalue : IsValue value)
    (rest : List String) : literal (tokens piece.toList ++ rest) = .ok (value, rest) := by
  cases h with
  | bare hword =>
    have hopen : openQuote? value = none := by
      obtain ⟨first, behind, hvalue⟩ := List.exists_cons_of_ne_nil hword.ne_nil
      have hfirst : isQuote first = false := hword.isQuote (by simp [hvalue])
      rw [isQuote] at hfirst
      rw [openQuote?, hvalue]
      dsimp only
      rw [hfirst, Bool.false_and, if_neg (by simp)]
    rw [hword.tokens, List.singleton_append, literal, hopen]
    dsimp only
    rw [unquote_of_plain hword]
  | quoted hquote =>
    obtain ⟨words, hne, hwords, rfl⟩ := hvalue
    rw [tokens_quoted hquote hne hwords]
    exact literal_enclosed hquote hne hwords rest

/-- Whether no word among some spells a keyword that starts a clause. -/
def StaysInside (words : List String) : Prop :=
  ∀ word ∈ words, Keyword.startsClause word = false

theorem startsClause_eq_false (h : ∀ keyword : Keyword, ¬keyword.Spells word) :
    Keyword.startsClause word = false := by
  rw [Keyword.startsClause, List.any_eq_false]
  intro keyword _ haccepts
  exact h keyword (Keyword.accepts_iff.1 haccepts)

theorem startsClause_of_other (h : keyword.Spells word)
    (hother : ∀ other ∈ Keyword.clauseStarts, ∀ spelling ∈ keyword.spellings,
      spelling ∉ other.spellings) : Keyword.startsClause word = false := by
  rw [Keyword.startsClause, List.any_eq_false]
  intro other hmem
  rw [h.accepts_other other (hother other hmem)]
  simp

theorem staysInside_value (h : PrintsValue value piece) (hvalue : IsValue value) :
    StaysInside (tokens piece.toList) := by
  intro word hword
  cases h with
  | bare hplain =>
    rw [hplain.tokens, List.mem_singleton] at hword
    exact startsClause_eq_false (hword ▸ hplain.not_spells)
  | quoted hquote =>
    obtain ⟨words, hne, hwords, rfl⟩ := hvalue
    rw [tokens_quoted hquote hne hwords] at hword
    exact startsClause_eq_false (IsInside.of_enclosed hquote hwords word hword).not_spells

/-! ### Conditions -/

theorem operator_of_prints {printed : Operator} (h : PrintsOperator printed piece) :
    tokens piece.toList = [piece] ∧ operator piece = .ok printed ∧
      Keyword.startsClause piece = false := by
  cases printed with
  | contains =>
    have hspells : Keyword.contains.Spells piece := h
    refine ⟨hspells.tokens, ?_, startsClause_of_other hspells (by decide)⟩
    rw [operator, hspells.accepts]
    rfl
  | _ =>
    obtain rfl := h
    decide

theorem connector_of_prints {printed : Connector} (h : PrintsConnector printed piece) :
    tokens piece.toList = [piece] ∧ connector piece = .ok printed ∧
      Keyword.startsClause piece = false := by
  cases printed with
  | and =>
    have hspells : Keyword.both.Spells piece := h
    refine ⟨hspells.tokens, ?_, startsClause_of_other hspells (by decide)⟩
    rw [connector, hspells.accepts]
    rfl
  | or =>
    have hspells : Keyword.either.Spells piece := h
    refine ⟨hspells.tokens, ?_, startsClause_of_other hspells (by decide)⟩
    rw [connector, hspells.accepts_other .both (by decide), hspells.accepts]
    rfl

variable {conditions : List Condition}

/-- The first condition of a printed chain is read up to what joins it to the next one. -/
theorem comparison_of_prints {symbol : String} {printed : Operator} (clause field : String)
    (hoperator : PrintsOperator printed symbol) (hpiece : PrintsValue value piece)
    (hvalue : IsValue value) (rest : List String) :
    comparison clause (field :: symbol :: (tokens piece.toList ++ rest))
      = .ok (⟨field, printed, value, none⟩, rest) := by
  rw [comparison, (operator_of_prints hoperator).2.1]
  change (do
    let found ← literal (tokens piece.toList ++ rest)
    return ((⟨field, printed, found.1, none⟩ : Condition), found.2)) = _
  rw [literal_of_prints hpiece hvalue]
  rfl

/-- A printed chain is read as it was, whatever the number of conditions that may be read. -/
theorem chain_of_prints (clause : String) (h : PrintsChain conditions pieces)
    (hplain : ∀ condition ∈ conditions, IsPlain condition.field ∧ IsValue condition.value)
    {fuel : Nat} (hfuel : conditions.length ≤ fuel) :
    chain clause fuel (tokensOf pieces) = .ok conditions := by
  induction h generalizing fuel with
  | @last field symbol value piece operator hoperator hvalue =>
    obtain ⟨fuel, rfl⟩ : ∃ more, fuel = more + 1 := ⟨fuel - 1, by simp at hfuel; omega⟩
    obtain ⟨hfield, hliteral⟩ := hplain _ List.mem_cons_self
    have hread := comparison_of_prints clause field hoperator hvalue hliteral []
    rw [tokensOf_cons, tokensOf_cons, tokensOf_cons, tokensOf_nil, hfield.tokens,
      (operator_of_prints hoperator).1, List.singleton_append, List.singleton_append, chain, hread]
    rfl
  | @more field symbol value piece word operator connector rest pieces hoperator hvalue hword hrest ih =>
    obtain ⟨fuel, rfl⟩ : ∃ more, fuel = more + 1 := ⟨fuel - 1, by simp at hfuel; omega⟩
    obtain ⟨hfield, hliteral⟩ := hplain _ List.mem_cons_self
    have hread := comparison_of_prints clause field hoperator hvalue hliteral
      (word :: tokensOf pieces)
    have hmore : chain clause fuel (tokensOf pieces) = .ok rest :=
      ih (fun condition hmem => hplain condition (List.mem_cons_of_mem _ hmem))
        (by simpa using hfuel)
    have hsome : (tokensOf pieces).isEmpty = false := by
      cases hrest <;> simp [(hplain _ (List.mem_cons_of_mem _ List.mem_cons_self)).1.tokens]
    rw [tokensOf_cons, tokensOf_cons, tokensOf_cons, tokensOf_cons, hfield.tokens,
      (operator_of_prints hoperator).1, (connector_of_prints hword).1, List.singleton_append,
      List.singleton_append, List.singleton_append, chain, hread]
    change (do
      let found ← Statement.connector word
      if (tokensOf pieces).isEmpty then throw (Error.unexpectedEnd _)
      let more ← chain clause fuel (tokensOf pieces)
      return { (⟨field, operator, value, none⟩ : Condition) with connector := some found } :: more) = _
    rw [(connector_of_prints hword).2.1, hsome]
    change (do
      let more ← chain clause fuel (tokensOf pieces)
      return { (⟨field, operator, value, none⟩ : Condition) with connector := some connector } :: more) = _
    rw [hmore]
    rfl

/-- Every condition has tokens of its own, and none of them starts a clause. -/
theorem tokens_of_prints (h : PrintsChain conditions pieces)
    (hplain : ∀ condition ∈ conditions, IsPlain condition.field ∧ IsValue condition.value) :
    conditions.length ≤ (tokensOf pieces).length ∧ StaysInside (tokensOf pieces) := by
  induction h with
  | last hoperator hvalue =>
    obtain ⟨hfield, hliteral⟩ := hplain _ List.mem_cons_self
    obtain ⟨hsymbol, -, hstart⟩ := operator_of_prints hoperator
    simp only [tokensOf_cons, tokensOf_nil, hfield.tokens, hsymbol, List.singleton_append,
      List.append_nil]
    refine ⟨by simp, ?_⟩
    rw [StaysInside, List.forall_mem_cons, List.forall_mem_cons]
    exact ⟨startsClause_eq_false hfield.not_spells, hstart, staysInside_value hvalue hliteral⟩
  | more hoperator hvalue hword hrest ih =>
    obtain ⟨hfield, hliteral⟩ := hplain _ List.mem_cons_self
    obtain ⟨hlength, hrest⟩ := ih fun condition hmem => hplain condition (List.mem_cons_of_mem _ hmem)
    obtain ⟨hsymbol, -, hstart⟩ := operator_of_prints hoperator
    obtain ⟨hjoined, -, hconnector⟩ := connector_of_prints hword
    simp only [tokensOf_cons, hfield.tokens, hsymbol, hjoined, List.singleton_append]
    refine ⟨by simp; omega, ?_⟩
    rw [StaysInside, List.forall_mem_cons, List.forall_mem_cons, List.forall_mem_append,
      List.forall_mem_cons]
    exact ⟨startsClause_eq_false hfield.not_spells, hstart, staysInside_value hvalue hliteral,
      hconnector, hrest⟩

/-! ### Clauses -/

/-- Whether a clause ends where the given tokens follow. -/
def EndsClause : List String → Prop
  | [] => True
  | token :: _ => Keyword.startsClause token = true

variable {query query' : Query} {passed : List String}

/-- The conditions of a clause are read up to the next clause. -/
theorem conditionClause_of_prints (clause : String) (h : PrintsChain conditions pieces)
    (hplain : ∀ condition ∈ conditions, IsPlain condition.field ∧ IsValue condition.value)
    (hrest : EndsClause rest) (hleft : cursor.left = tokensOf pieces ++ rest) :
    ∃ next : Cursor, next.left = rest ∧ conditionClause clause cursor = .ok (conditions, next) := by
  obtain ⟨hlength, hinside⟩ := tokens_of_prints h hplain
  have hnone : rest.takeWhile (fun token => !Keyword.startsClause token) = [] := by
    cases rest with
    | nil => rfl
    | cons token rest =>
      have hstart : Keyword.startsClause token = true := hrest
      exact List.takeWhile_cons_of_neg (by simp [hstart])
  have htaken :
      cursor.left.takeWhile (fun token => !Keyword.startsClause token) = tokensOf pieces := by
    rw [hleft, List.takeWhile_append_of_pos fun token htoken => by simp [hinside token htoken], hnone,
      List.append_nil]
  refine ⟨cursor.advance (tokensOf pieces).length, ?_, ?_⟩
  · rw [Cursor.left_advance, hleft, List.drop_left]
  · rw [conditionClause, htaken]
    change (do
      let found ← Statement.conditions clause (tokensOf pieces)
      return (found, cursor.advance (tokensOf pieces).length)) = _
    rw [Statement.conditions, chain_of_prints clause h hplain (Nat.le_succ_of_le hlength)]
    rfl

/-- Whether the clauses that the given tokens make up turn one query into another one, whatever
clauses follow. -/
structure Passes (query : Query) (passed : List String) (query' : Query) : Prop where
  ends : EndsClause passed
  run : ∃ count ≤ passed.length, ∀ (fuel : Nat) (rest : List String) (cursor : Cursor),
    EndsClause rest → cursor.left = passed ++ rest →
      ∃ next : Cursor, next.left = rest ∧
        clauses (count + fuel) query cursor = clauses fuel query' next

namespace Passes

theorem refl (query : Query) : Passes query [] query :=
  ⟨trivial, 0, Nat.le_refl 0, fun fuel _ cursor _ hleft => ⟨cursor, hleft, by rw [Nat.zero_add]⟩⟩

theorem ends_append (hpassed : EndsClause passed) (hrest : EndsClause rest) :
    EndsClause (passed ++ rest) := by
  cases passed with
  | nil => exact hrest
  | cons token behind => exact hpassed

theorem trans {query'' : Query} {passed' : List String} (h : Passes query passed query')
    (h' : Passes query' passed' query'') : Passes query (passed ++ passed') query'' := by
  obtain ⟨count, hcount, hrun⟩ := h.run
  obtain ⟨count', hcount', hrun'⟩ := h'.run
  refine ⟨ends_append h.ends h'.ends, count + count', ?_, fun fuel rest cursor hrest hleft => ?_⟩
  · rw [List.length_append]
    exact Nat.add_le_add hcount hcount'
  · rw [List.append_assoc] at hleft
    obtain ⟨next, hnext, hclauses⟩ := hrun (count' + fuel) _ cursor (ends_append h'.ends hrest) hleft
    obtain ⟨last, hlast, hclauses'⟩ := hrun' fuel rest next hrest hnext
    exact ⟨last, hlast, by rw [Nat.add_assoc, hclauses, hclauses']⟩

/-- One clause, from the word that starts it. -/
theorem clause (hstart : Keyword.startsClause word = true)
    (h : ∀ (rest : List String) (cursor : Cursor), EndsClause rest →
      cursor.left = word :: (passed ++ rest) →
        ∃ next : Cursor, next.left = rest ∧ clause query word cursor = .ok (query', next)) :
    Passes query (word :: passed) query' := by
  refine ⟨hstart, 1, by simp, fun fuel rest cursor hrest hleft => ?_⟩
  obtain ⟨next, hnext, hclause⟩ := h rest cursor hrest hleft
  refine ⟨next, hnext, ?_⟩
  rw [Nat.add_comm, clauses, hleft]
  change (do
    let found ← Statement.clause query word cursor
    clauses fuel found.1 found.2) = _
  rw [hclause]
  rfl

/-- Where nothing follows, the query is read. -/
theorem clauses_eq (h : Passes query passed query') (hleft : cursor.left = passed) :
    clauses passed.length query cursor = .ok query' := by
  obtain ⟨count, hcount, hrun⟩ := h.run
  obtain ⟨fuel, hfuel⟩ := Nat.exists_eq_add_of_le hcount
  obtain ⟨next, hnext, hclauses⟩ := hrun fuel [] cursor trivial (by rw [hleft, List.append_nil])
  rw [hfuel, hclauses]
  cases fuel with
  | zero => rfl
  | succ fuel => rw [clauses, hnext]

end Passes

theorem startsClause_of_spells (h : keyword.Spells word) (hmem : keyword ∈ Keyword.clauseStarts) :
    Keyword.startsClause word = true :=
  List.any_eq_true.2 ⟨keyword, hmem, h.accepts⟩

theorem joinKind?_eq_none (h : keyword.Spells word)
    (hother : ∀ other ∈ [Keyword.inner, .left, .right, .full, .join],
      ∀ spelling ∈ keyword.spellings, spelling ∉ other.spellings) : joinKind? word = none := by
  rw [joinKind?, h.accepts_other _ (hother _ (by simp)), h.accepts_other _ (hother _ (by simp)),
    h.accepts_other _ (hother _ (by simp)), h.accepts_other _ (hother _ (by simp)),
    h.accepts_other _ (hother _ (by simp))]
  rfl

theorem passes_filter (h : PrintsConditions .filter PrintsNothing conditions pieces)
    (hplain : ∀ condition ∈ conditions, IsPlain condition.field ∧ IsValue condition.value)
    (hnone : query.conditions = []) :
    Passes query (tokensOf pieces) { query with conditions } := by
  cases h with
  | nothing =>
    rw [← hnone]
    exact .refl query
  | @chain word fill _ pieces hword hfill hchain =>
    cases hfill
    rw [tokensOf_cons, hword.tokens]
    refine .clause (startsClause_of_spells hword (by decide)) fun rest cursor hrest hleft => ?_
    have hbehind : (cursor.advance 1).left = tokensOf pieces ++ rest := by
      rw [Cursor.left_advance, hleft]
      rfl
    obtain ⟨next, hnext, hconditions⟩ := conditionClause_of_prints "WHERE" hchain hplain hrest hbehind
    refine ⟨next, hnext, ?_⟩
    rw [Statement.clause, joinKind?_eq_none hword (by decide)]
    dsimp only
    rw [if_pos hword.accepts]
    rw [hconditions]
    rfl

theorem passes_having
    (h : PrintsConditions .having (PrintsFiller .havingFiller) conditions pieces)
    (hplain : ∀ condition ∈ conditions, IsPlain condition.field ∧ IsValue condition.value)
    (hnone : query.having = []) :
    Passes query (tokensOf pieces) { query with having := conditions } := by
  cases h with
  | nothing =>
    rw [← hnone]
    exact .refl query
  | @chain word fill _ pieces hword hfill hchain =>
    rw [tokensOf_cons, hword.tokens, List.singleton_append, tokensOf_append]
    refine .clause (startsClause_of_spells hword (by decide)) fun rest cursor hrest hleft => ?_
    have hbehind : ((cursor.advance 1).skip .havingFiller).left = tokensOf pieces ++ rest := by
      refine Cursor.left_skip hfill (by simp [Cursor.left_advance, hleft]) fun token htoken => ?_
      have hfirst : IsPlain token := by
        cases hchain with
        | last | more =>
          have hfield := (hplain _ List.mem_cons_self).1
          rw [tokensOf_cons, hfield.tokens] at htoken
          exact Option.some.inj htoken ▸ hfield
      exact hfirst.accepts _
    obtain ⟨next, hnext, hconditions⟩ := conditionClause_of_prints "HAVING" hchain hplain hrest hbehind
    refine ⟨next, hnext, ?_⟩
    rw [Statement.clause, joinKind?_eq_none hword (by decide)]
    dsimp only
    rw [hword.if_other .filter (by decide), hword.if_other .group (by decide), if_pos hword.accepts]
    rw [hconditions]
    rfl

theorem passes_group {group : Option String} (h : PrintsGroup group pieces)
    (hplain : ∀ column, group = some column → IsPlain column) (hnone : query.groupBy = none) :
    Passes query (tokensOf pieces) { query with groupBy := group } := by
  cases h with
  | nothing =>
    rw [← hnone]
    exact .refl query
  | @column word column fill hword hfill =>
    have hcolumn := hplain column rfl
    rw [tokensOf_cons, hword.tokens, List.singleton_append, tokensOf_append, tokensOf_cons,
      hcolumn.tokens]
    refine .clause (startsClause_of_spells hword (by decide)) fun rest cursor hrest hleft => ?_
    have hbehind : ((cursor.advance 1).skip .byWord).left = column :: rest := by
      refine Cursor.left_skip hfill (by simp [Cursor.left_advance, hleft]) fun token htoken => ?_
      exact Option.some.inj htoken ▸ hcolumn.accepts _
    refine ⟨((cursor.advance 1).skip .byWord).advance 1, by rw [Cursor.left_advance, hbehind]; rfl, ?_⟩
    rw [Statement.clause, joinKind?_eq_none hword (by decide)]
    dsimp only
    rw [hword.if_other .filter (by decide), if_pos hword.accepts]
    rw [Cursor.field_of_left hbehind hcolumn]
    rfl

/-- What starts a clause is no other keyword. -/
theorem accepts_of_ends (hrest : EndsClause rest)
    (hother : ∀ start ∈ Keyword.clauseStarts, ∀ spelling ∈ start.spellings,
      spelling ∉ keyword.spellings) : ∀ token ∈ rest.head?, keyword.accepts token = false := by
  intro token htoken
  cases rest with
  | nil => exact absurd htoken (by simp)
  | cons first rest =>
    obtain rfl := Option.some.inj htoken
    obtain ⟨start, hstart, haccepts⟩ := List.any_eq_true.1 hrest
    exact (Keyword.accepts_iff.1 haccepts).accepts_other keyword (hother start hstart)

/-- A column is read with its direction, which is ascending where nothing says otherwise. -/
theorem orderClause_of_prints {key : OrderBy} {word : String}
    (h : PrintsOrder (some key) (word :: pieces)) (hplain : IsPlain key.column)
    (hrest : EndsClause rest) (hleft : cursor.left = tokensOf pieces ++ rest) :
    ∃ next : Cursor, next.left = rest ∧ orderClause cursor = .ok (key, next) := by
  have hbehind {fill rest : List String} {column : String} (hcolumn : IsPlain column)
      (hfill : PrintsFiller .byWord fill) (hleft : cursor.left = tokensOf fill ++ column :: rest) :
      (cursor.skip .byWord).left = column :: rest :=
    Cursor.left_skip hfill hleft fun token htoken => Option.some.inj htoken ▸ hcolumn.accepts _
  cases h with
  | @ascending _ column fill direction hword hfill hdirection =>
    rw [tokensOf_append, tokensOf_cons, hplain.tokens, List.append_assoc] at hleft
    have hcolumn := hbehind hplain hfill hleft
    have hnext : ((cursor.skip .byWord).advance 1).left = tokensOf direction ++ rest := by
      rw [Cursor.left_advance, hcolumn]
      rfl
    have hascending : ((cursor.skip .byWord).advance 1).sees .descending = false := by
      refine Cursor.sees_eq_false ?_
      rw [hnext]
      cases hdirection with
      | nothing => exact accepts_of_ends hrest (by decide)
      | word hdirection =>
        rw [tokensOf_cons, hdirection.tokens]
        intro token htoken
        exact Option.some.inj htoken ▸ hdirection.accepts_other .descending (by decide)
    refine ⟨_, Cursor.left_skip hdirection hnext (accepts_of_ends hrest (by decide)), ?_⟩
    rw [orderClause, Cursor.field_of_left hcolumn hplain]
    exact if_neg (by simp [hascending])
  | @descending _ column direction fill hword hfill hdirection =>
    rw [tokensOf_append, tokensOf_cons, hplain.tokens, List.append_assoc, tokensOf_cons,
      hdirection.tokens] at hleft
    have hcolumn := hbehind hplain hfill hleft
    have hnext : ((cursor.skip .byWord).advance 1).left = direction :: rest := by
      rw [Cursor.left_advance, hcolumn]
      rfl
    have hdescending : ((cursor.skip .byWord).advance 1).sees .descending = true := by
      rw [Cursor.sees_of_left hnext, hdirection.accepts]
    refine ⟨((cursor.skip .byWord).advance 1).advance 1, by rw [Cursor.left_advance, hnext]; rfl, ?_⟩
    rw [orderClause, Cursor.field_of_left hcolumn hplain]
    exact if_pos hdescending

theorem passes_order {order : Option OrderBy} (h : PrintsOrder order pieces)
    (hplain : ∀ key, order = some key → IsPlain key.column) (hnone : query.orderBy = none) :
    Passes query (tokensOf pieces) { query with orderBy := order } := by
  cases order with
  | none =>
    cases h with
    | nothing =>
      rw [← hnone]
      exact .refl query
  | some key =>
    obtain ⟨word, behind, hword, rfl⟩ : ∃ word behind, Keyword.order.Spells word ∧
        pieces = word :: behind := by
      cases h with
      | ascending hword | descending hword => exact ⟨_, _, hword, rfl⟩
    rw [tokensOf_cons, hword.tokens]
    refine .clause (startsClause_of_spells hword (by decide)) fun rest cursor hrest hleft => ?_
    have hbehind : (cursor.advance 1).left = tokensOf behind ++ rest := by
      rw [Cursor.left_advance, hleft]
      rfl
    obtain ⟨next, hnext, horder⟩ := orderClause_of_prints h (hplain key rfl) hrest hbehind
    refine ⟨next, hnext, ?_⟩
    rw [Statement.clause, joinKind?_eq_none hword (by decide)]
    dsimp only
    rw [hword.if_other .filter (by decide), hword.if_other .group (by decide),
      hword.if_other .having (by decide), if_pos hword.accepts]
    rw [horder]
    rfl

/-! ### Numbers -/

theorem readInteger?_integerText {n : Int} (hlow : -2 ^ 63 ≤ n) (hhigh : n < 2 ^ 63) :
    Number.readInteger? (Number.integerText n) = some n := by
  rw [Number.integerText]
  split
  · rename_i hneg
    rw [Number.readInteger?, Number.readDigits?_decimalDigits]
    dsimp only
    rw [if_pos (by omega)]
    exact congrArg some (by omega)
  · rename_i hpos
    unfold Number.readInteger?
    split
    · rename_i hminus
      exact absurd hminus (Number.decimalDigits_ne_cons (by decide) _)
    · rw [Number.readNatural?_decimalDigits (by omega)]
      exact congrArg some (by simp; omega)

theorem integer_of_left {n : Int} (hleft : cursor.left = String.ofList (Number.integerText n) :: rest)
    (hrange : -2 ^ 63 ≤ n ∧ n < 2 ^ 63) (clause : String) :
    cursor.integer clause = .ok (n, cursor.advance 1) := by
  rw [Cursor.integer, Cursor.token_of_left hleft]
  dsimp only [bind, Except.bind]
  rw [String.toList_ofList, readInteger?_integerText hrange.1 hrange.2]
  rfl

theorem passes_limit {n : Int} (h : PrintsNumber .limit (-1) n pieces)
    (hrange : -2 ^ 63 ≤ n ∧ n < 2 ^ 63) (hnone : query.limit = -1) :
    Passes query (tokensOf pieces) { query with limit := n } := by
  cases h with
  | nothing =>
    rw [← hnone]
    exact .refl query
  | @number word n hword =>
    rw [tokensOf_cons, hword.tokens, tokensOf_cons, tokens_integerText]
    refine .clause (startsClause_of_spells hword (by decide)) fun rest cursor hrest hleft => ?_
    have hbehind : (cursor.advance 1).left = String.ofList (Number.integerText n) :: rest := by
      rw [Cursor.left_advance, hleft]
      rfl
    refine ⟨(cursor.advance 1).advance 1, by rw [Cursor.left_advance, hbehind]; rfl, ?_⟩
    rw [Statement.clause, joinKind?_eq_none hword (by decide)]
    dsimp only
    rw [hword.if_other .filter (by decide), hword.if_other .group (by decide),
      hword.if_other .having (by decide), hword.if_other .order (by decide), if_pos hword.accepts,
      integer_of_left hbehind hrange]
    rfl

theorem passes_offset {n : Int} (h : PrintsNumber .offset 0 n pieces)
    (hrange : -2 ^ 63 ≤ n ∧ n < 2 ^ 63) (hnone : query.offset = 0) :
    Passes query (tokensOf pieces) { query with offset := n } := by
  cases h with
  | nothing =>
    rw [← hnone]
    exact .refl query
  | @number word n hword =>
    rw [tokensOf_cons, hword.tokens, tokensOf_cons, tokens_integerText]
    refine .clause (startsClause_of_spells hword (by decide)) fun rest cursor hrest hleft => ?_
    have hbehind : (cursor.advance 1).left = String.ofList (Number.integerText n) :: rest := by
      rw [Cursor.left_advance, hleft]
      rfl
    refine ⟨(cursor.advance 1).advance 1, by rw [Cursor.left_advance, hbehind]; rfl, ?_⟩
    rw [Statement.clause, joinKind?_eq_none hword (by decide)]
    dsimp only
    rw [hword.if_other .filter (by decide), hword.if_other .group (by decide),
      hword.if_other .having (by decide), hword.if_other .order (by decide),
      hword.if_other .limit (by decide), if_pos hword.accepts, integer_of_left hbehind hrange]
    rfl

/-! ### Joins -/

theorem joinKind?_of_spells {kind : JoinKind} (h : (joinKeyword kind).Spells word) :
    joinKind? word = some kind := by
  cases kind with
  | inner => exact if_pos h.accepts
  | left =>
    have h : Keyword.left.Spells word := h
    rw [joinKind?, h.if_other .inner (by decide), if_pos h.accepts]
  | right =>
    have h : Keyword.right.Spells word := h
    rw [joinKind?, h.if_other .inner (by decide), h.if_other .left (by decide), if_pos h.accepts]
  | full =>
    have h : Keyword.full.Spells word := h
    rw [joinKind?, h.if_other .inner (by decide), h.if_other .left (by decide),
      h.if_other .right (by decide), if_pos h.accepts]

theorem joinKind?_of_join (h : Keyword.join.Spells word) : joinKind? word = some .inner := by
  rw [joinKind?, h.if_other .inner (by decide), h.if_other .left (by decide),
    h.if_other .right (by decide), h.if_other .full (by decide), if_pos h.accepts]

/-- A join is read from the word behind which its table stands. -/
theorem joinClause_of_left (kind : JoinKind) {table left right on : String}
    (hon : Keyword.onColumn.Spells on) (htable : IsSource table)
    (hplain : IsPlain left ∧ IsPlain right)
    {next : Cursor} (hnext : next.left = table :: on :: left :: "=" :: right :: rest)
    (hfirst : (if cursor.sees .join then pure (cursor.advance 1) else (cursor.advance 1).expect .join)
      = Except.ok next) :
    ∃ last : Cursor, last.left = rest ∧
      joinClause kind cursor = .ok (⟨kind, table, left, right⟩, last) := by
  refine ⟨next.advance 1 |>.advance 1 |>.advance 1 |>.advance 1 |>.advance 1, ?_, ?_⟩
  · simp [Cursor.left_advance, hnext]
  unfold joinClause
  extract_lets behind
  have hbehind : behind next = .ok (⟨kind, table, left, right⟩,
      next.advance 1 |>.advance 1 |>.advance 1 |>.advance 1 |>.advance 1) := by
    have hleft : ((next.advance 1).advance 1).left = left :: "=" :: right :: rest := by
      simp [Cursor.left_advance, hnext]
    have hsymbol : (((next.advance 1).advance 1).advance 1).left = "=" :: right :: rest := by
      simp [Cursor.left_advance, hnext]
    have hright : ((((next.advance 1).advance 1).advance 1).advance 1).left = right :: rest := by
      simp [Cursor.left_advance, hnext]
    have hexpect : (next.advance 1).expect .onColumn = .ok ((next.advance 1).advance 1) :=
      Cursor.expect_of_left (by simp only [Cursor.left_advance, hnext]; rfl) hon
    dsimp only [behind]
    rw [Cursor.name_of_left hnext htable.isValid]
    dsimp only [bind, Except.bind]
    rw [hexpect]
    dsimp only
    rw [Cursor.field_of_left hleft hplain.1]
    dsimp only
    rw [Cursor.token_of_left hsymbol]
    dsimp only
    rw [if_neg (by simp)]
    dsimp only [pure, Except.pure]
    rw [Cursor.field_of_left hright hplain.2]
  by_cases hsees : cursor.sees .join = true
  · rw [if_pos hsees] at hfirst ⊢
    obtain rfl := Except.ok.inj hfirst
    exact hbehind
  · rw [if_neg hsees] at hfirst ⊢
    rw [hfirst]
    exact hbehind

theorem passes_join {join : Join} (h : PrintsJoin join pieces) (hsource : IsSource join.table)
    (hplain : IsPlain join.left ∧ IsPlain join.right) (query : Query) :
    Passes query (tokensOf pieces) { query with joins := query.joins ++ [join] } := by
  have hequal : tokens "=".toList = ["="] := by decide
  have hclause {kind : JoinKind} {word : String} {cursor next : Cursor}
      (hkind : joinKind? word = some kind)
      (hjoin : joinClause kind cursor = .ok (join, next)) :
      Statement.clause query word cursor = .ok ({ query with joins := query.joins ++ [join] }, next) := by
    rw [Statement.clause, hkind]
    dsimp only
    rw [hjoin]
    rfl
  cases h with
  | @inner table left right word on hword hon =>
    simp only [tokensOf_cons, tokensOf_nil, hword.tokens, hsource.tokens, hon.tokens, hplain.1.tokens,
      hplain.2.tokens, hequal, List.singleton_append, List.append_nil]
    refine .clause (startsClause_of_spells hword (by decide)) fun rest cursor hrest hleft => ?_
    have hsees : cursor.sees .join = true := by rw [Cursor.sees_of_left hleft, hword.accepts]
    obtain ⟨last, hlast, hjoin⟩ := joinClause_of_left .inner hon hsource hplain
      (by rw [Cursor.left_advance, hleft]; rfl) (if_pos hsees)
    exact ⟨last, hlast, hclause (joinKind?_of_join hword) hjoin⟩
  | @ofKind kind table left right first word on hfirst hword hon =>
    simp only [tokensOf_cons, tokensOf_nil, hfirst.tokens, hword.tokens, hsource.tokens, hon.tokens,
      hplain.1.tokens, hplain.2.tokens, hequal, List.singleton_append, List.append_nil]
    refine .clause (startsClause_of_spells hfirst (by cases kind <;> decide))
      fun rest cursor hrest hleft => ?_
    have hsees : ¬cursor.sees .join = true := by
      rw [Cursor.sees_of_left hleft, hfirst.accepts_other .join (by cases kind <;> decide)]
      simp
    have hbehind : (cursor.advance 1).left = word :: table :: on :: left :: "=" :: right :: rest := by
      rw [Cursor.left_advance, hleft]
      rfl
    obtain ⟨last, hlast, hjoin⟩ := joinClause_of_left kind hon hsource hplain
      (by rw [Cursor.left_advance, hbehind]; rfl)
      ((if_neg hsees).trans (Cursor.expect_of_left hbehind hword))
    exact ⟨last, hlast, hclause (joinKind?_of_spells hfirst) hjoin⟩

theorem passes_joins {joins : List Join} {printed : List (List String)}
    (h : List.Forall₂ PrintsJoin joins printed)
    (hplain : ∀ join ∈ joins, IsSource join.table ∧ IsPlain join.left ∧ IsPlain join.right)
    (query : Query) :
    Passes query (tokensOf printed.flatten) { query with joins := query.joins ++ joins } := by
  induction h generalizing query with
  | nil =>
    rw [List.append_nil]
    exact .refl query
  | @cons join pieces joins printed hjoin hrest ih =>
    obtain ⟨hsource, hboth⟩ := hplain join List.mem_cons_self
    have hfirst := passes_join hjoin hsource hboth query
    have hmore := ih (fun other hother => hplain other (List.mem_cons_of_mem join hother))
      { query with joins := query.joins ++ [join] }
    rw [List.flatten_cons, tokensOf_append, List.append_cons]
    exact hfirst.trans hmore

/-! ### Fields -/

variable {fields : List String}

theorem fieldList_append {gap : List Char} (hgap : ∀ c ∈ gap, Text.isBlank c = true)
    (hne : fields ≠ [])
    (h : ∀ field ∈ fields, IsPlain field) :
    fieldList (gap ++ (", ".intercalate fields).toList) = .ok fields := by
  have hpiece {gap : List Char} {field : String} (hgap : ∀ c ∈ gap, Text.isBlank c = true)
      (hfield : IsPlain field) :
      (gap ++ field.toList).filter (fun c => !Text.isBlank c) = field.toList ∧
        ',' ∉ gap ++ field.toList := by
    refine ⟨?_, fun hcomma => ?_⟩
    · rw [List.filter_append, List.filter_eq_nil_iff.2 fun c hc => by simp [hgap c hc],
        List.filter_eq_self.2 fun c hc => by simp [hfield.isBlank hc], List.nil_append]
    · rcases List.mem_append.1 hcomma with hcomma | hcomma
      · exact absurd (hgap _ hcomma) (by decide)
      · exact hfield.not_comma_mem hcomma
  induction fields generalizing gap with
  | nil => exact absurd rfl hne
  | cons field rest ih =>
    have hfield := h field (by simp)
    obtain ⟨hfilter, hcomma⟩ := hpiece hgap hfield
    cases rest with
    | nil =>
      rw [String.intercalate_singleton, fieldList, List.splitOn_eq_singleton hcomma, List.mapM_cons]
      dsimp only
      rw [hfilter, List.isEmpty_eq_false_iff.2 hfield.ne_nil, String.ofList_toList]
      rfl
    | cons next rest =>
      have htext : gap ++ (", ".intercalate (field :: next :: rest)).toList
          = (gap ++ field.toList) ++ ',' :: ([' '] ++ (", ".intercalate (next :: rest)).toList) := by
        rw [String.intercalate_cons_cons]
        simp
      have hblank : ∀ c ∈ [' '], Text.isBlank c = true := List.forall_mem_singleton.2 (by decide)
      have hrest := ih hblank (by simp) fun other hother => h other (List.mem_cons_of_mem field hother)
      rw [fieldList] at hrest
      rw [htext, fieldList, List.splitOn_append_cons_self_of_not_mem hcomma, List.mapM_cons, hrest]
      dsimp only
      rw [hfilter, List.isEmpty_eq_false_iff.2 hfield.ne_nil, String.ofList_toList]
      rfl

/-- The fields of a query end at the word that names its source. -/
theorem fieldCount?_listed (h : ∀ field ∈ fields, IsPlain field) (hword : Keyword.source.Spells word) :
    fieldCount? (listed fields ++ word :: rest) = some (listed fields).length := by
  have hinside : ∀ token ∈ listed fields, (!Keyword.startsClause token) = true := by
    intro token htoken
    rw [startsClause_eq_false (not_spells_listed h htoken)]
    rfl
  have hsource : (listed fields).findIdx? Keyword.source.accepts = none := by
    rw [List.findIdx?_eq_none_iff]
    intro token htoken
    exact Keyword.accepts_eq_false (not_spells_listed h htoken _)
  rw [fieldCount?, List.takeWhile_append_of_pos hinside,
    List.takeWhile_cons_of_pos (by simp [startsClause_of_other hword (by decide)]),
    List.findIdx?_append, hsource, List.findIdx?_cons, hword.accepts]
  simp

theorem listed_ne_nil (hne : fields ≠ []) : listed fields ≠ [] := by
  fun_induction listed fields with
  | case1 => exact absurd rfl hne
  | case2 => simp
  | case3 => simp

/-- A query is read from its fields on. -/
theorem selection_of_left {query : Query} {passed : List String} (hne : fields ≠ [])
    (hfields : ∀ field ∈ fields, IsPlain field) (hword : Keyword.source.Spells word)
    {table : String} (htable : IsSource table)
    (hleft : cursor.left = listed fields ++ word :: table :: passed)
    (hpasses : Passes { Query.all table with fields } passed query) :
    selection cursor = .ok (.select query) := by
  have hlisted := listed_ne_nil hne
  have hdatabases : cursor.sees .databases = false := by
    refine Cursor.sees_eq_false fun token htoken => ?_
    rw [hleft, List.head?_append_of_ne_nil _ hlisted] at htoken
    exact Keyword.accepts_eq_false (not_spells_listed hfields (List.mem_of_mem_head? htoken) _)
  have htaken : joinTokens (cursor.left.take (listed fields).length)
      = (", ".intercalate fields).toList := by
    rw [hleft, List.take_left, joinTokens_listed]
  have hsource : (cursor.advance ((listed fields).length + 1)).left = table :: passed := by
    rw [Cursor.left_advance, hleft, List.drop_append]
    simp
  have hcount : fieldCount? cursor.left = some (listed fields).length := by
    rw [hleft, fieldCount?_listed hfields hword]
  obtain ⟨count, hlength⟩ : ∃ count, (listed fields).length = count + 1 :=
    Nat.exists_eq_add_one.2 (List.length_pos_iff.2 hlisted)
  have hlist : fieldList (", ".intercalate fields).toList = .ok fields :=
    fieldList_append (fun _ hno => absurd hno List.not_mem_nil) hne hfields
  rw [selection, hdatabases, if_neg (by simp), hcount, hlength]
  change (do
    let fields ← fieldList (joinTokens (cursor.left.take (count + 1)))
    let named ← (cursor.advance (count + 1 + 1)).name "table name"
    return Command.select
      (← clauses named.2.left.length { Query.all named.1 with fields } named.2)) = _
  rw [← hlength, htaken, hlist]
  change (do
    let named ← (cursor.advance ((listed fields).length + 1)).name "table name"
    return Command.select
      (← clauses named.2.left.length { Query.all named.1 with fields } named.2)) = _
  rw [Cursor.name_of_left hsource htable.isValid]
  change (do
    let last := (cursor.advance ((listed fields).length + 1)).advance 1
    return Command.select (← clauses last.left.length { Query.all table with fields } last)) = _
  have hlast : ((cursor.advance ((listed fields).length + 1)).advance 1).left = passed := by
    rw [Cursor.left_advance, hsource]
    rfl
  dsimp only
  rw [hlast, hpasses.clauses_eq hlast]
  rfl

end Statement

open Statement

/-- A query that can be printed is read back from whatever it is printed as. -/
theorem Query.parse_of_prints {query : Query} (hquery : query.IsPrintable) :
    (∃ pieces, query.Prints pieces) ∧
      ∀ pieces, query.Prints pieces → parse (" ".intercalate pieces) = .ok (.select query) := by
  refine ⟨query.exists_prints hquery, fun pieces h => ?_⟩
  have hends := h.allEnd hquery
  obtain ⟨hverb, hsource, hjoins, hconditions, hgroup, hhaving, horder, hlimit, hoffset⟩ := h
  obtain ⟨read, hparse⟩ := parse_joinTokens hverb.tokens hends
  have hpasses :=
    (passes_joins hjoins hquery.joins { Query.all query.table with fields := query.fields }).trans <|
    (passes_filter hconditions hquery.conditions rfl).trans <|
    (passes_group hgroup hquery.groupBy rfl).trans <|
    (passes_having hhaving hquery.having rfl).trans <|
    (passes_order horder hquery.orderBy rfl).trans <|
    (passes_limit hlimit hquery.limit rfl).trans (passes_offset hoffset hquery.offset rfl)
  rw [hparse, commandOf, hverb.if_other .create (by decide), hverb.if_other .insert (by decide),
    if_pos hverb.accepts]
  refine selection_of_left hquery.fields_ne_nil hquery.fields hsource hquery.table ?_ hpasses
  simp only [tokensOf_cons, tokensOf_append, tokens_listed hquery.fields, hsource.tokens,
    hquery.table.tokens, List.singleton_append]

/-- A query with every clause. -/
def Query.full : Query where
  fields := ["k.kota", "COUNT(*)"]
  table := "t"
  joins := [⟨.left, "k", "t.id", "k.id"⟩]
  conditions := [⟨"nama", .equal, "Asep Sunandar", some .or⟩, ⟨"id", .greaterEqual, "5", none⟩]
  groupBy := some "kota"
  having := [⟨"COUNT(*)", .contains, "1", none⟩]
  orderBy := some ⟨"kota", true⟩
  limit := 10
  offset := -2

theorem Query.parse_of_prints_full : Query.full.IsPrintable ∧
    parse ("tInGaLi k.kota, COUNT(*) TI t KENCA gabung k dina t.id = k.id "
      ++ "DIMANA nama = \"Asep Sunandar\" atawa id >= 5 kumpulkeun kota "
      ++ "MUN syaratna COUNT(*) Jiga 1 order BY kota Turun sakadar 10 LIWATAN -2")
      = .ok (.select Query.full) := by
  have hwords : ∀ word ∈ ["k.kota", "COUNT(*)", "t.id", "k.id", "nama", "Asep", "Sunandar", "id", "5",
      "kota", "1"], IsPlain word := by
    decide +kernel
  have htables : IsSource "t" ∧ IsSource "k" := by decide +kernel
  simp only [List.forall_mem_cons] at hwords
  obtain ⟨hfield, hcount, hleft, hright, hnama, hasep, hsunandar, hid, hfive, hkota, hone, -⟩ := hwords
  have hname : IsValue "Asep Sunandar" := ⟨["Asep", "Sunandar"], by simp [hasep, hsunandar]⟩
  have hvalue {word : String} (h : IsPlain word) : IsValue word := ⟨[word], by simpa using h⟩
  have hprintable : Query.full.IsPrintable := {
    fields_ne_nil := by decide
    fields := by simp [Query.full, hfield, hcount]
    table := htables.1
    joins := by simp [Query.full, htables.2, hleft, hright]
    conditions := by simp [Query.full, hnama, hname, hid, hvalue hfive]
    isChain_conditions := by decide
    groupBy := by simp [Query.full, hkota]
    having := by simp [Query.full, hcount, hvalue hone]
    isChain_having := by decide
    orderBy := by simp [Query.full, hkota]
    limit := by decide
    offset := by decide }
  have hprints : Query.full.Prints _ := .pieces
    (by decide : Keyword.select.Spells "tInGaLi") (by decide : Keyword.source.Spells "TI")
    (.cons (.ofKind (by decide : Keyword.left.Spells "KENCA") (by decide : Keyword.join.Spells "gabung")
      (by decide : Keyword.onColumn.Spells "dina")) .nil)
    (.chain (by decide : Keyword.filter.Spells "DIMANA") .nothing
      (.more (rfl : PrintsOperator .equal "=") (.quoted (rfl : isQuote '"' = true))
        (by decide : Keyword.either.Spells "atawa")
        (.last (rfl : PrintsOperator .greaterEqual ">=") (.bare hfive))))
    (.column (by decide : Keyword.group.Spells "kumpulkeun") .nothing)
    (.chain (by decide : Keyword.having.Spells "MUN")
      (.word (by decide : Keyword.havingFiller.Spells "syaratna"))
      (.last (by decide : Keyword.contains.Spells "Jiga") (.bare hone)))
    (.descending (by decide : Keyword.order.Spells "order")
      (.word (by decide : Keyword.byWord.Spells "BY")) (by decide : Keyword.descending.Spells "Turun"))
    (.number 10 (by decide : Keyword.limit.Spells "sakadar"))
    (.number (-2) (by decide : Keyword.offset.Spells "LIWATAN"))
  refine ⟨hprintable, ?_⟩
  refine (congrArg parse ?_).trans ((Query.parse_of_prints hprintable).2 _ hprints)
  decide +kernel

end FlatFileDb
