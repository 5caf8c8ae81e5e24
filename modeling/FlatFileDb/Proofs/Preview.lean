import FlatFileDb.Proofs.Lexeme
import FlatFileDb.Proofs.Reading

/-!
# Deletions previewed

A deletion takes all tokens behind WHERE as its conditions. A query takes those in front of the next word
that starts a clause, wherever that word stands: it may be a column or a value, or stand inside a quoted
value. So the two read the same conditions as long as no such word is among them. If there is one, it
stands behind a complete chain, which the deletion refuses as the word is no connector, or the query is
left with a chain that is not complete.
-/

namespace FlatFileDb.Statement

variable {table verb : String} {pieces rest : List String} {source : List Char}

/-! ### Reading what stands behind WHERE -/

/-- A statement goes on behind words that are tokens of their own with the tokens of what follows. -/
theorem parse_append (h : ∀ piece ∈ verb :: pieces,
      tokens piece.toList = [piece] ∧ ';' ∉ piece.toList) (text : String) :
    ∃ read source, parse (" ".intercalate (verb :: pieces) ++ " " ++ text)
      = commandOf read verb ⟨source, 1, pieces ++ tokens (clean text.toList)⟩ := by
  obtain ⟨htokens, -⟩ := h verb List.mem_cons_self
  obtain ⟨first, behind, hfirst⟩ := List.exists_cons_of_ne_nil (ne_nil_of_tokens htokens)
  have hblank : Text.isBlank first = false := isBlank_of_tokens htokens (by simp [hfirst])
  obtain ⟨front, hfront⟩ : ∃ front, joinTokens (verb :: pieces) = first :: front := by
    cases pieces with
    | nil => exact ⟨behind, by rw [joinTokens_singleton, hfirst]⟩
    | cons next rest => exact ⟨_, by rw [joinTokens_cons_cons, hfirst]; rfl⟩
  have hends : EndsStatement (first :: front) := by
    rw [← hfront]
    exact endsStatement_joinTokens (List.cons_ne_nil _ _)
      fun piece hpiece => endsStatement_of_tokens (h piece hpiece).1 (h piece hpiece).2
  have hall : tokens (first :: front) = verb :: pieces := by
    rw [← hfront, tokens_joinTokens, tokensOf_of_tokens fun piece hpiece => (h piece hpiece).1]
  have htext : (" ".intercalate (verb :: pieces) ++ " " ++ text).toList
      = first :: front ++ ' ' :: text.toList := by
    rw [String.toList_append, String.toList_append, ← joinTokens, hfront, List.append_assoc]
    rfl
  have hread : tokens (clean (" ".intercalate (verb :: pieces) ++ " " ++ text).toList)
      = verb :: (pieces ++ tokens (clean text.toList)) := by
    rw [htext, tokens_clean_append hblank hends, hall]
    rfl
  obtain ⟨read, hparse⟩ := parse_eq_commandOf hread
  exact ⟨read, _, hparse⟩

/-- A deletion takes everything behind the keyword as its conditions. -/
theorem deletion_eq (htable : Name.isValid table = true) (words : List String) :
    deletion ⟨source, 1, "FROM" :: table :: "WHERE" :: words⟩
      = (conditions "WHERE" words).map (Command.delete table) := by
  have hfrom : Keyword.source.accepts "FROM" = true := by decide
  have hwhere : Keyword.filter.accepts "WHERE" = true := by decide
  have hname : Cursor.name "table name" ⟨source, 2, table :: "WHERE" :: words⟩
      = .ok (table, ⟨source, 3, "WHERE" :: words⟩) :=
    Cursor.name_of_left rfl htable _
  rw [deletion, Cursor.expect]
  simp only [hfrom]
  change (do
      let found ← Cursor.name "table name" ⟨source, 2, table :: "WHERE" :: words⟩
      if found.2.left.isEmpty then return Command.delete found.1 []
      let cursor ← found.2.expect .filter
      return Command.delete found.1 (← conditions "WHERE" cursor.left)) = _
  rw [hname]
  change (do
      let cursor ← Cursor.expect .filter ⟨source, 3, "WHERE" :: words⟩
      return Command.delete table (← conditions "WHERE" cursor.left)) = _
  rw [Cursor.expect]
  simp only [hwhere]
  change (do return Command.delete table (← conditions "WHERE" words)) = _
  cases conditions "WHERE" words <;> rfl

/-- The tokens up to the next clause. -/
def beforeClause (words : List String) : List String :=
  words.takeWhile fun word => !Keyword.startsClause word

theorem clause_filter (query : Query) (words : List String) (taken : Nat) :
    clause query "WHERE" ⟨source, taken, "WHERE" :: words⟩
      = (conditions "WHERE" (beforeClause words)).map fun conditions =>
          ({ query with conditions }, ⟨source, taken + 1 + (beforeClause words).length,
            words.drop (beforeClause words).length⟩) := by
  have hjoin : joinKind? "WHERE" = none := by decide
  have hwhere : Keyword.filter.accepts "WHERE" = true := by decide
  rw [clause, hjoin]
  dsimp only
  rw [if_pos hwhere, conditionClause]
  cases hread : conditions "WHERE" (beforeClause words) with
  | error e | ok found =>
    rw [beforeClause] at hread
    change ((Statement.conditions "WHERE" (words.takeWhile _) >>= _) >>= _) = _
    rw [hread]
    rfl

/-- A query takes what stands in front of the next clause as its conditions. -/
theorem selection_eq (htable : Name.isValid table = true) (words : List String) :
    selection ⟨source, 1, "*" :: "FROM" :: table :: "WHERE" :: words⟩ = (do
      let conditions ← conditions "WHERE" (beforeClause words)
      return .select (← clauses words.length { Query.all table with conditions }
        ⟨source, 5 + (beforeClause words).length, words.drop (beforeClause words).length⟩)) := by
  have hstar : Keyword.databases.accepts "*" = false ∧ Keyword.startsClause "*" = false ∧
      Keyword.source.accepts "*" = false := by
    decide
  have hfrom : Keyword.startsClause "FROM" = false ∧ Keyword.source.accepts "FROM" = true := by
    decide
  have hcount : fieldCount? ("*" :: "FROM" :: table :: "WHERE" :: words) = some 1 := by
    rw [fieldCount?, List.takeWhile_cons_of_pos (by simp [hstar]),
      List.takeWhile_cons_of_pos (by simp [hfrom]), List.findIdx?_cons, hstar.2.2,
      List.findIdx?_cons, hfrom.2]
    rfl
  have hfields : fieldList (joinTokens ["*"]) = .ok ["*"] := by decide
  have hname : Cursor.name "table name" ⟨source, 3, table :: "WHERE" :: words⟩
      = .ok (table, ⟨source, 4, "WHERE" :: words⟩) :=
    Cursor.name_of_left rfl htable _
  have hsees : Cursor.sees .databases ⟨source, 1, "*" :: "FROM" :: table :: "WHERE" :: words⟩ = false :=
    hstar.1
  rw [selection, hsees, if_neg (by simp), hcount]
  change (do
    let fields ← fieldList (joinTokens ["*"])
    let found ← Cursor.name "table name" ⟨source, 3, table :: "WHERE" :: words⟩
    return Command.select (← clauses found.2.left.length { Query.all found.1 with fields } found.2)) = _
  rw [hfields]
  change (do
    let found ← Cursor.name "table name" ⟨source, 3, table :: "WHERE" :: words⟩
    return Command.select (← clauses found.2.left.length (Query.all found.1) found.2)) = _
  rw [hname]
  change (do
    return Command.select (← clauses (words.length + 1) (Query.all table)
      ⟨source, 4, "WHERE" :: words⟩)) = _
  rw [clauses]
  change ((clause (Query.all table) "WHERE" ⟨source, 4, "WHERE" :: words⟩ >>= fun found =>
    clauses words.length found.1 found.2) >>= fun query => pure (Command.select query)) = _
  rw [clause_filter]
  cases conditions "WHERE" (beforeClause words) <;> rfl

/-! ### Tokens behind a chain -/

variable {clauseName value : String} {words more : List String} {quote : Char}
  {condition : Condition} {chained : List Condition}

theorem upToClosing_append {quoted : List String} (h : upToClosing quote words = some (quoted, rest))
    (more : List String) : upToClosing quote (words ++ more) = some (quoted, rest ++ more) := by
  induction words generalizing quoted with
  | nil => exact absurd h (by simp [upToClosing])
  | cons token words ih =>
    rw [upToClosing] at h
    rw [List.cons_append, upToClosing]
    by_cases hcloses : closes quote token = true
    · rw [if_pos hcloses] at h ⊢
      obtain ⟨rfl, rfl⟩ := Prod.mk.inj (Option.some.inj h)
      rfl
    · rw [if_neg hcloses] at h ⊢
      obtain ⟨⟨taken, left⟩, hfound, hsame⟩ := Option.map_eq_some_iff.1 h
      obtain ⟨rfl, rfl⟩ := Prod.mk.inj hsame
      rw [ih hfound]
      rfl

theorem literal_append (h : literal words = .ok (value, rest)) (more : List String) :
    literal (words ++ more) = .ok (value, rest ++ more) := by
  cases words with
  | nil => exact absurd h (by simp [literal])
  | cons token words =>
    rw [literal] at h
    rw [List.cons_append, literal]
    cases hopen : openQuote? token with
    | none =>
      rw [hopen] at h
      obtain ⟨rfl, rfl⟩ := Prod.mk.inj (Except.ok.inj h)
      rfl
    | some quote =>
      rw [hopen] at h
      dsimp only at h ⊢
      cases hclosing : upToClosing quote words with
      | none =>
        rw [hclosing] at h
        exact absurd h (by simp)
      | some found =>
        rw [hclosing] at h
        rw [upToClosing_append hclosing]
        obtain ⟨rfl, rfl⟩ := Prod.mk.inj (Except.ok.inj h)
        rfl

theorem comparison_append (h : comparison clauseName words = .ok (condition, rest))
    (more : List String) : comparison clauseName (words ++ more) = .ok (condition, rest ++ more) := by
  obtain ⟨field, symbol, behind, rfl⟩ : ∃ field symbol behind, words = field :: symbol :: behind := by
    match words, h with
    | [], h => exact absurd h (by simp [comparison])
    | [_], h => exact absurd h (by simp [comparison])
    | field :: symbol :: behind, _ => exact ⟨field, symbol, behind, rfl⟩
  rw [comparison] at h
  obtain ⟨operator, hoperator, h⟩ := Action.of_bind_eq_ok h
  obtain ⟨⟨value, behind'⟩, hliteral, h⟩ := Action.of_bind_eq_ok h
  obtain ⟨rfl, rfl⟩ := Prod.mk.inj (Except.ok.inj h)
  rw [List.cons_append, List.cons_append, comparison, hoperator]
  dsimp only [bind, Except.bind]
  rw [literal_append hliteral]
  rfl

/-- A chain is one condition, or a condition with a connector behind it and then a chain. -/
theorem chain_cases {fuel : Nat} (h : chain clauseName (fuel + 1) words = .ok chained) :
    ∃ condition rest, comparison clauseName words = .ok (condition, rest) ∧
      (rest = [] ∧ chained = [condition] ∨ ∃ word behind joined more, rest = word :: behind ∧
        connector word = .ok joined ∧ behind ≠ [] ∧ chain clauseName fuel behind = .ok more ∧
          chained = { condition with connector := some joined } :: more) := by
  rw [chain] at h
  obtain ⟨⟨condition, rest⟩, hfirst, h⟩ := Action.of_bind_eq_ok h
  refine ⟨condition, rest, hfirst, ?_⟩
  cases rest with
  | nil => exact .inl ⟨rfl, (Except.ok.inj h).symm⟩
  | cons word behind =>
    obtain ⟨joined, hjoined, h⟩ := Action.of_bind_eq_ok h
    by_cases hnone : behind = []
    · rw [hnone] at h
      exact absurd h (by simp [bind, Except.bind, throw, throwThe, MonadExceptOf.throw])
    · rw [if_neg (by simpa using hnone)] at h
      obtain ⟨more, hmore, h⟩ := Action.of_bind_eq_ok h
      exact .inr ⟨word, behind, joined, more, rfl, hjoined, hnone, hmore, (Except.ok.inj h).symm⟩

/-- Behind a chain that is complete nothing but a connector goes on. -/
theorem chain_append {fuel fuel' : Nat} (h : chain clauseName fuel words = .ok chained)
    {word : String} {e : Error} (hword : connector word = .error e) (hfuel : fuel ≤ fuel') :
    ∃ e, chain clauseName fuel' (words ++ word :: more) = .error e := by
  induction fuel generalizing fuel' words chained with
  | zero => exact absurd h (by simp [chain])
  | succ fuel ih =>
    obtain ⟨fuel', rfl⟩ : ∃ n, fuel' = n + 1 := ⟨fuel' - 1, by omega⟩
    obtain ⟨condition, rest, hfirst, hcases⟩ := chain_cases h
    rw [chain, comparison_append hfirst]
    rcases hcases with ⟨rfl, -⟩ | ⟨next, behind, joined, rest', rfl, hjoined, -, hmore, -⟩
    · refine ⟨e, ?_⟩
      dsimp only [bind, Except.bind, List.nil_append]
      rw [hword]
    · obtain ⟨e', hfails⟩ := ih hmore (Nat.le_of_succ_le_succ hfuel)
      refine ⟨e', ?_⟩
      dsimp only [bind, Except.bind, List.cons_append]
      rw [hjoined]
      dsimp only
      rw [if_neg (by simp), hfails]

theorem exists_connector_error {word : String} (h : Keyword.startsClause word = true) :
    ∃ e, connector word = .error e := by
  obtain ⟨keyword, hkeyword, haccepts⟩ := List.any_eq_true.1 h
  have hspells := Keyword.accepts_iff.1 haccepts
  have hother : ∀ keyword ∈ Keyword.clauseStarts, ∀ spelling ∈ keyword.spellings,
      spelling ∉ Keyword.both.spellings ∧ spelling ∉ Keyword.either.spellings := by
    decide
  refine ⟨.unexpectedToken "AND or OR" word, ?_⟩
  rw [connector, hspells.if_other _ fun spelling hmem => (hother keyword hkeyword spelling hmem).1,
    hspells.if_other _ fun spelling hmem => (hother keyword hkeyword spelling hmem).2]

theorem beforeClause_eq_self (h : StaysInside words) : beforeClause words = words :=
  List.takeWhile_eq_self_iff.2 fun word hword => by simp [h word hword]

theorem exists_beforeClause (h : ∃ word ∈ words, Keyword.startsClause word = true) :
    ∃ word rest, Keyword.startsClause word = true ∧ words = beforeClause words ++ word :: rest := by
  have hsplit : words = beforeClause words ++ words.dropWhile fun word => !Keyword.startsClause word :=
    List.takeWhile_append_dropWhile.symm
  have hhead := List.head?_dropWhile_not (fun word => !Keyword.startsClause word) words
  cases hcase : words.dropWhile fun word => !Keyword.startsClause word with
  | nil =>
    obtain ⟨word, hword, hstarts⟩ := h
    have hall := List.dropWhile_eq_nil_iff.1 hcase word hword
    rw [hstarts] at hall
    exact absurd hall (by simp)
  | cons word rest =>
    rw [hcase] at hhead hsplit
    exact ⟨word, rest, by simpa using hhead, hsplit⟩

/-! ### The statements -/

/-- The words in front of the conditions are tokens of their own. -/
theorem tokens_front (htable : Name.isValid table = true) {front : List String}
    (h : ∀ piece ∈ front, piece = table ∨
      piece ∈ ["DELETE", "SELECT", "UPDATE", "SET", "*", "FROM", "WHERE"]) :
    ∀ piece ∈ front, tokens piece.toList = [piece] ∧ ';' ∉ piece.toList := by
  intro piece hpiece
  have hall : ∀ piece ∈ ["DELETE", "SELECT", "UPDATE", "SET", "*", "FROM", "WHERE"],
      tokens piece.toList = [piece] ∧ ';' ∉ piece.toList := by
    decide
  rcases h piece hpiece with rfl | hpiece
  · exact ⟨tokens_of_isValid htable, Name.not_mem htable (by decide)⟩
  · exact hall piece hpiece

theorem parse_delete (htable : Name.isValid table = true) (text : String) :
    parse ("DELETE FROM " ++ table ++ " WHERE " ++ text)
      = (conditions "WHERE" (tokens (clean text.toList))).map (Command.delete table) := by
  have htext : "DELETE FROM " ++ table ++ " WHERE " ++ text
      = " ".intercalate ["DELETE", "FROM", table, "WHERE"] ++ " " ++ text := by
    rw [← String.toList_inj]
    simp
  have hfront : ∀ piece ∈ ["DELETE", "FROM", table, "WHERE"],
      tokens piece.toList = [piece] ∧ ';' ∉ piece.toList :=
    tokens_front htable (by simp)
  obtain ⟨read, source, hparse⟩ := parse_append hfront text
  rw [htext, hparse, commandOf, if_neg (by decide), if_neg (by decide), if_neg (by decide),
    if_neg (by decide), if_pos (by decide), List.cons_append, List.cons_append, List.cons_append,
    List.nil_append, deletion_eq htable]

theorem parse_select (htable : Name.isValid table = true) (text : String) :
    ∃ source, parse ("SELECT * FROM " ++ table ++ " WHERE " ++ text)
      = selection ⟨source, 1, "*" :: "FROM" :: table :: "WHERE" :: tokens (clean text.toList)⟩ := by
  have htext : "SELECT * FROM " ++ table ++ " WHERE " ++ text
      = " ".intercalate ["SELECT", "*", "FROM", table, "WHERE"] ++ " " ++ text := by
    rw [← String.toList_inj]
    simp
  have hfront : ∀ piece ∈ ["SELECT", "*", "FROM", table, "WHERE"],
      tokens piece.toList = [piece] ∧ ';' ∉ piece.toList :=
    tokens_front htable (by simp)
  obtain ⟨read, source, hparse⟩ := parse_append hfront text
  refine ⟨source, ?_⟩
  rw [htext, hparse, commandOf, if_neg (by decide), if_neg (by decide), if_pos (by decide),
    List.cons_append, List.cons_append, List.cons_append, List.cons_append, List.nil_append]

theorem parse_select_of_staysInside (htable : Name.isValid table = true) {text : String}
    (h : StaysInside (tokens (clean text.toList))) :
    parse ("SELECT * FROM " ++ table ++ " WHERE " ++ text)
      = (conditions "WHERE" (tokens (clean text.toList))).map fun conditions =>
          .select { Query.all table with conditions } := by
  obtain ⟨source, hparse⟩ := parse_select htable text
  have hend {query : Query} {n taken : Nat} : clauses n query ⟨source, taken, []⟩ = .ok query := by
    cases n <;> rfl
  rw [hparse, selection_eq htable, beforeClause_eq_self h]
  cases conditions "WHERE" (tokens (clean text.toList)) with
  | error e => rfl
  | ok found =>
    dsimp only [bind, Except.bind]
    rw [List.drop_length, hend]
    rfl

/-- A query and a deletion with the same conditions are read alike, if no word of the conditions
starts a clause; else not both of them are read. -/
theorem parse_where (htable : Name.isValid table = true) (text : String) :
    (StaysInside (tokens (clean text.toList)) → ∀ conditions,
      parse ("DELETE FROM " ++ table ++ " WHERE " ++ text) = .ok (.delete table conditions) ↔
        parse ("SELECT * FROM " ++ table ++ " WHERE " ++ text)
          = .ok (.select { Query.all table with conditions })) ∧
      ((∃ word ∈ tokens (clean text.toList), Keyword.startsClause word = true) → ∀ conditions,
        parse ("DELETE FROM " ++ table ++ " WHERE " ++ text) = .ok (.delete table conditions) →
          ∃ e, parse ("SELECT * FROM " ++ table ++ " WHERE " ++ text) = .error e) := by
  constructor
  · intro hinside conditions
    rw [parse_delete htable, parse_select_of_staysInside htable hinside]
    cases Statement.conditions "WHERE" (tokens (clean text.toList)) with
    | error e => simp [Except.map]
    | ok found =>
      change Except.ok (Command.delete table found) = _ ↔ Except.ok (Command.select _) = _
      constructor
      · rintro ⟨rfl⟩
        rfl
      · intro hsame
        injection hsame with hsame
        injection hsame with hsame
        injection hsame with _ _ _ hsame
        rw [hsame]
  · rintro hstarts conditions hdelete
    obtain ⟨source, hparse⟩ := parse_select htable text
    obtain ⟨word, rest, hword, hsplit⟩ := exists_beforeClause hstarts
    rw [hparse, selection_eq htable]
    cases hread : Statement.conditions "WHERE" (beforeClause (tokens (clean text.toList))) with
    | error e => exact ⟨e, rfl⟩
    | ok found =>
      obtain ⟨e, hconnector⟩ := exists_connector_error hword
      have hshorter : (beforeClause (tokens (clean text.toList))).length
          ≤ (tokens (clean text.toList)).length := by
        rw [congrArg List.length hsplit, List.length_append]
        omega
      obtain ⟨e, hfails⟩ : ∃ e,
          Statement.conditions "WHERE" (tokens (clean text.toList)) = .error e := by
        rw [Statement.conditions]
        nth_rewrite 2 [hsplit]
        exact chain_append hread hconnector (Nat.succ_le_succ hshorter)
      rw [parse_delete htable, hfails] at hdelete
      exact absurd hdelete (by simp [Except.map])

theorem parse_where_limit :
    parse ("SELECT * FROM " ++ "t" ++ " WHERE " ++ "a = 'x y' OR b>2;") = .ok (.select
      { Query.all "t" with
        conditions := [⟨"a", .equal, "x y", some .or⟩, ⟨"b", .greater, "2", none⟩] }) ∧
      ∃ e, parse ("SELECT * FROM " ++ "t" ++ " WHERE " ++ "limit = 5") = .error e := by
  have htable : Name.isValid "t" = true := by decide
  constructor
  · have hinside : StaysInside (tokens (clean "a = 'x y' OR b>2;".toList)) := by
      rw [StaysInside]
      decide +kernel
    exact (((parse_where htable _).1 hinside) _).1 (by decide +kernel)
  · have hdelete : parse ("DELETE FROM " ++ "t" ++ " WHERE " ++ "limit = 5")
        = .ok (.delete "t" [⟨"limit", .equal, "5", none⟩]) := by
      decide +kernel
    exact (parse_where htable "limit = 5").2 (by decide +kernel) _ hdelete

/-- A column may have the name of a clause, and then rows can be deleted by it and not be looked at. -/
theorem not_parse_select_of_delete : ¬∀ table text conditions, Name.isValid table = true →
    (parse ("DELETE FROM " ++ table ++ " WHERE " ++ text) = .ok (.delete table conditions) ↔
      parse ("SELECT * FROM " ++ table ++ " WHERE " ++ text)
        = .ok (.select { Query.all table with conditions })) := by
  intro hall
  have hsame := hall "t" "limit = 5" [⟨"limit", .equal, "5", none⟩] (by decide)
  have hdelete : parse ("DELETE FROM " ++ "t" ++ " WHERE " ++ "limit = 5")
      = .ok (.delete "t" [⟨"limit", .equal, "5", none⟩]) := by
    decide +kernel
  exact absurd (hsame.1 hdelete) (by decide +kernel)

end FlatFileDb.Statement
