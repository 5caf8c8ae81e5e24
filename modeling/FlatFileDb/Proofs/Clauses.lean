import FlatFileDb.Proofs.Lexeme
import FlatFileDb.Proofs.Reading

/-!
# The clauses of a query

Behind its source a query is a list of clauses, in any order and any number, and each of them is written
into the query when it is read. So a query holds all its joins, and of every other kind of clause the
last one: whatever an earlier one of that kind asked for is gone, as if it had not been written.
-/

namespace FlatFileDb

namespace Statement

/-- What stands behind the source of a query. -/
inductive Clause where
  | join (join : Join)
  | filter (conditions : List Condition)
  | group (column : String)
  | having (conditions : List Condition)
  | order (order : OrderBy)
  | limit (n : Int)
  | offset (n : Int)
  deriving DecidableEq, Repr

namespace Clause

/-- The query with a clause written into it. -/
def writeTo (query : Query) : Clause → Query
  | .join found => { query with joins := query.joins ++ [found] }
  | filter conditions => { query with conditions }
  | group column => { query with groupBy := some column }
  | having conditions => { query with having := conditions }
  | .order key => { query with orderBy := some key }
  | limit n => { query with limit := n }
  | offset n => { query with offset := n }

/-- Whether a query asks for what a clause says. -/
def IsIn (query : Query) : Clause → Prop
  | .join found => found ∈ query.joins
  | filter conditions => query.conditions = conditions
  | group column => query.groupBy = some column
  | having conditions => query.having = conditions
  | .order key => query.orderBy = some key
  | limit n => query.limit = n
  | offset n => query.offset = n

/-- Whether a clause takes the place of another one, as both are of one kind and not joins. -/
def overwrites : Clause → Clause → Bool
  | filter _, filter _ | group _, group _ | having _, having _ | order _, order _ | limit _, limit _
  | offset _, offset _ => true
  | _, _ => false

def join? : Clause → Option Join
  | .join found => some found
  | _ => none

/-- The tokens that a clause may be written as. -/
inductive Spells : Clause → List String → Prop
  | join {join : Join} {words : List String} (h : PrintsJoin join words) : Spells (.join join) words
  | filter {word : String} {words : List String} {conditions : List Condition}
      (hword : Keyword.filter.Spells word) (hinside : StaysInside words)
      (h : Statement.conditions "WHERE" words = .ok conditions) :
      Spells (.filter conditions) (word :: words)
  | group {column : String} {words : List String} (h : PrintsGroup (some column) words) :
      Spells (.group column) words
  | having {word : String} {fill words : List String} {conditions : List Condition}
      (hword : Keyword.having.Spells word) (hfill : PrintsFiller .havingFiller fill)
      (hinside : StaysInside words) (h : Statement.conditions "HAVING" words = .ok conditions) :
      Spells (.having conditions) (word :: (fill ++ words))
  | order {order : OrderBy} {words : List String} (h : PrintsOrder (some order) words) :
      Spells (.order order) words
  | limit {word token : String} {n : Int} (hword : Keyword.limit.Spells word)
      (h : Number.readInteger? token.toList = some n) : Spells (.limit n) [word, token]
  | offset {word token : String} {n : Int} (hword : Keyword.offset.Spells word)
      (h : Number.readInteger? token.toList = some n) : Spells (.offset n) [word, token]

/-! ### What is left of a clause -/

variable {query : Query} {clause later : Clause} {after : List Clause}

theorem isIn_writeTo (query : Query) (clause : Clause) : clause.IsIn (clause.writeTo query) := by
  cases clause with
  | join found => exact List.mem_append_right query.joins (List.mem_singleton_self found)
  | _ => rfl

theorem IsIn.writeTo (h : clause.IsIn query) (hlater : later.overwrites clause = false) :
    clause.IsIn (later.writeTo query) := by
  cases clause with
  | join found =>
    cases later with
    | join other => exact List.mem_append_left [other] h
    | _ => exact h
  | _ =>
    cases later with
    | join other => exact h
    | _ => first | exact h | exact absurd hlater (by simp [overwrites])

/-- A clause stays in the query until another one takes its place. -/
theorem IsIn.foldl (h : clause.IsIn query)
    (hafter : ∀ later ∈ after, later.overwrites clause = false) :
    clause.IsIn (after.foldl Clause.writeTo query) := by
  induction after generalizing query with
  | nil => exact h
  | cons later after ih =>
    exact ih (h.writeTo (hafter later List.mem_cons_self))
      fun other hother => hafter other (List.mem_cons_of_mem later hother)

/-- Nothing is left of a clause once another one takes its place. -/
theorem foldl_overwritten (query : Query)
    (h : ∃ later ∈ after, later.overwrites clause = true) :
    after.foldl writeTo (clause.writeTo query) = after.foldl writeTo query := by
  induction after generalizing query with
  | nil =>
    obtain ⟨later, hlater, -⟩ := h
    exact absurd hlater List.not_mem_nil
  | cons first after ih =>
    rw [List.foldl_cons, List.foldl_cons]
    by_cases hfirst : first.overwrites clause = true
    · refine congrArg (after.foldl writeTo) ?_
      cases first <;> cases clause <;> first | rfl | exact absurd hfirst (by simp [overwrites])
    · obtain ⟨later, hlater, hoverwrites⟩ := h
      have hmore : ∃ later ∈ after, later.overwrites clause = true := by
        rcases List.mem_cons.1 hlater with rfl | hlater
        · exact absurd hoverwrites hfirst
        · exact ⟨later, hlater, hoverwrites⟩
      have hswap : first.writeTo (clause.writeTo query) = clause.writeTo (first.writeTo query) := by
        cases clause with
        | join found => cases later <;> exact absurd hoverwrites (by simp [overwrites])
        | _ => cases first <;> first | rfl | exact absurd rfl hfirst
      rw [hswap, ih _ hmore]

theorem joins_foldl (clauses : List Clause) (query : Query) :
    (clauses.foldl writeTo query).joins = query.joins ++ clauses.filterMap join? := by
  induction clauses generalizing query with
  | nil => exact (List.append_nil _).symm
  | cons clause clauses ih =>
    rw [List.foldl_cons, ih]
    cases clause with
    | join found => exact List.append_assoc _ _ _
    | _ => rfl

theorem source_foldl (clauses : List Clause) (query : Query) :
    (clauses.foldl writeTo query).table = query.table ∧
      (clauses.foldl writeTo query).fields = query.fields := by
  induction clauses generalizing query with
  | nil => exact ⟨rfl, rfl⟩
  | cons clause clauses ih =>
    rw [List.foldl_cons, (ih _).1, (ih _).2]
    cases clause <;> exact ⟨rfl, rfl⟩

theorem Spells.length_pos {clause : Clause} {words : List String} (h : Spells clause words) :
    0 < words.length := by
  cases h with
  | join h => cases h <;> exact Nat.succ_pos _
  | group h => cases h; exact Nat.succ_pos _
  | order h => cases h <;> exact Nat.succ_pos _
  | filter | having | limit | offset => exact Nat.succ_pos _

end Clause

/-- The fields of a query as they may be written, with the word behind them that names the source; all
fields if there is no such word. -/
inductive SpellsFields : List String → List String → Prop
  | all : SpellsFields ["*"] []
  | listed {fields words : List String} {word : String}
      (h : fieldList (joinTokens words) = .ok fields) (hword : Keyword.source.Spells word) :
      SpellsFields fields (words ++ [word])

/-! ### What a step along a statement takes -/

namespace Cursor

variable {cursor next : Cursor} {keyword : Keyword} {word : String}

theorem left_of_token {what : String} (h : cursor.token what = .ok (word, next)) :
    cursor.left = word :: next.left := by
  unfold Cursor.token at h
  split at h
  · exact absurd h (by simp)
  · rename_i token rest hleft
    obtain ⟨rfl, rfl⟩ := Prod.mk.inj (Except.ok.inj h)
    rw [left_advance, hleft]
    rfl

theorem left_of_expect (h : cursor.expect keyword = .ok next) :
    ∃ word, keyword.Spells word ∧ cursor.left = word :: next.left := by
  unfold expect at h
  split at h
  · exact absurd h (by simp)
  · rename_i token rest hleft
    split at h
    · rename_i haccepts
      obtain rfl := Except.ok.inj h
      exact ⟨token, Keyword.accepts_iff.1 haccepts, by rw [left_advance, hleft]; rfl⟩
    · exact absurd h (by simp)

theorem left_of_name {what : String} (h : cursor.name what = .ok (word, next)) :
    cursor.left = word :: next.left := by
  obtain ⟨⟨token, behind⟩, htoken, h⟩ := Action.of_bind_eq_ok h
  simp only at h
  split at h
  · obtain ⟨rfl, rfl⟩ := Prod.mk.inj (Except.ok.inj h)
    exact left_of_token htoken
  · exact absurd h Action.throw_ne_ok

theorem left_of_field {what : String} (h : cursor.field what = .ok (word, next)) :
    cursor.left = word :: next.left := by
  obtain ⟨⟨token, behind⟩, htoken, h⟩ := Action.of_bind_eq_ok h
  simp only at h
  split at h
  · exact absurd h Action.throw_ne_ok
  · obtain ⟨rfl, rfl⟩ := Prod.mk.inj (Except.ok.inj h)
    exact left_of_token htoken

theorem left_of_integer {clause : String} {n : Int} (h : cursor.integer clause = .ok (n, next)) :
    ∃ token, Number.readInteger? token.toList = some n ∧ cursor.left = token :: next.left := by
  obtain ⟨⟨token, behind⟩, htoken, h⟩ := Action.of_bind_eq_ok h
  simp only at h
  split at h
  · rename_i m hread
    obtain ⟨rfl, rfl⟩ := Prod.mk.inj (Except.ok.inj h)
    exact ⟨token, hread, left_of_token htoken⟩
  · exact absurd h Action.throw_ne_ok

theorem left_of_sees (h : cursor.sees keyword = true) :
    ∃ word, keyword.Spells word ∧ cursor.left = word :: (cursor.advance 1).left := by
  unfold sees at h
  split at h
  · exact absurd h (by simp)
  · rename_i token rest hleft
    exact ⟨token, Keyword.accepts_iff.1 h, by rw [left_advance, hleft]; rfl⟩

theorem exists_filler (keyword : Keyword) (cursor : Cursor) :
    ∃ fill, PrintsFiller keyword fill ∧ cursor.left = fill ++ (cursor.skip keyword).left := by
  rw [skip]
  by_cases h : cursor.sees keyword = true
  · obtain ⟨word, hword, hleft⟩ := left_of_sees h
    rw [if_pos h]
    exact ⟨[word], .word hword, hleft⟩
  · rw [if_neg h]
    exact ⟨[], .nothing, rfl⟩

end Cursor

/-! ### What a clause takes -/

variable {cursor next : Cursor} {query query' : Query} {word : String} {rest : List String}

/-- A word starts a join of some kind by naming the kind, or an inner join by the word for joins. -/
theorem spells_of_joinKind? {kind : JoinKind} (h : joinKind? word = some kind) :
    (joinKeyword kind).Spells word ∨ kind = .inner ∧ Keyword.join.Spells word := by
  unfold joinKind? at h
  split at h
  · exact .inl (Option.some.inj h ▸ Keyword.accepts_iff.1 ‹_›)
  · split at h
    · exact .inl (Option.some.inj h ▸ Keyword.accepts_iff.1 ‹_›)
    · split at h
      · exact .inl (Option.some.inj h ▸ Keyword.accepts_iff.1 ‹_›)
      · split at h
        · exact .inl (Option.some.inj h ▸ Keyword.accepts_iff.1 ‹_›)
        · split at h
          · exact .inr ⟨(Option.some.inj h).symm, Keyword.accepts_iff.1 ‹_›⟩
          · exact absurd h (by simp)

theorem joinClause_spelled {kind : JoinKind} {join : Join} (hleft : cursor.left = word :: rest)
    (hkind : joinKind? word = some kind) (h : joinClause kind cursor = .ok (join, next)) :
    ∃ words, PrintsJoin join words ∧ cursor.left = words ++ next.left := by
  unfold joinClause at h
  extract_lets behind at h
  have hbehind {middle : Cursor} (h : behind middle = .ok (join, next)) :
      ∃ on, Keyword.onColumn.Spells on ∧ join.kind = kind ∧
        middle.left = join.table :: on :: join.left :: "=" :: join.right :: next.left := by
    obtain ⟨⟨table, next⟩, htable, h⟩ := Action.of_bind_eq_ok h
    obtain ⟨next, hexpect, h⟩ := Action.of_bind_eq_ok h
    obtain ⟨⟨left, next⟩, hfield, h⟩ := Action.of_bind_eq_ok h
    obtain ⟨⟨symbol, next⟩, hsymbol, h⟩ := Action.of_bind_eq_ok h
    simp only at h
    split at h
    · exact absurd h (by simp [throw, throwThe, MonadExceptOf.throw, bind, Except.bind])
    · rename_i hequal
      obtain ⟨⟨right, next⟩, hright, h⟩ := Action.of_bind_eq_ok h
      obtain ⟨rfl, rfl⟩ := Prod.mk.inj (Except.ok.inj h)
      obtain ⟨on, hon, hleft⟩ := Cursor.left_of_expect hexpect
      have hsame : symbol = "=" := by simpa using hequal
      rw [Cursor.left_of_name htable, hleft, Cursor.left_of_field hfield, Cursor.left_of_token hsymbol,
        Cursor.left_of_field hright, hsame]
      exact ⟨on, hon, rfl, rfl⟩
  have hadvanced : (cursor.advance 1).left = rest := by
    rw [Cursor.left_advance, hleft]
    rfl
  obtain ⟨kind', table, left, right⟩ := join
  split at h
  · rename_i hsees
    obtain ⟨on, hon, rfl, hmiddle⟩ := hbehind h
    rw [Cursor.sees_of_left hleft] at hsees
    have hword := Keyword.accepts_iff.1 hsees
    obtain rfl := Option.some.inj ((joinKind?_of_join hword).symm.trans hkind)
    rw [hadvanced] at hmiddle
    exact ⟨_, .inner hword hon, by rw [hleft, hmiddle]; rfl⟩
  · rename_i hsees
    obtain ⟨middle, hexpect, h⟩ := Action.of_bind_eq_ok h
    obtain ⟨on, hon, rfl, hmiddle⟩ := hbehind h
    obtain ⟨second, hsecond, hbetween⟩ := Cursor.left_of_expect hexpect
    rw [hadvanced, hmiddle] at hbetween
    rw [Cursor.sees_of_left hleft] at hsees
    have hfirst := (spells_of_joinKind? hkind).resolve_right fun hjoin => hsees hjoin.2.accepts
    exact ⟨_, .ofKind hfirst hsecond hon, by rw [hleft, hbetween]; rfl⟩

theorem conditionClause_spelled {clause : String} {found : List Condition}
    (h : conditionClause clause cursor = .ok (found, next)) :
    ∃ words, StaysInside words ∧ conditions clause words = .ok found ∧
      cursor.left = words ++ next.left := by
  obtain ⟨found', hconditions, h⟩ := Action.of_bind_eq_ok h
  obtain ⟨rfl, rfl⟩ := Prod.mk.inj (Except.ok.inj h)
  refine ⟨_, fun word hword => ?_, hconditions, ?_⟩
  · simpa using List.mem_takeWhile_imp hword
  · rw [Cursor.left_advance]
    exact ((List.prefix_iff_eq_append).1 (List.takeWhile_prefix _)).symm

theorem orderClause_spelled {order : OrderBy} (hword : Keyword.order.Spells word)
    (h : orderClause cursor = .ok (order, next)) :
    ∃ words, PrintsOrder (some order) (word :: words) ∧ cursor.left = words ++ next.left := by
  obtain ⟨⟨column, behind⟩, hfield, h⟩ := Action.of_bind_eq_ok h
  obtain ⟨fill, hfill, hleft⟩ := Cursor.exists_filler .byWord cursor
  rw [Cursor.left_of_field hfield] at hleft
  simp only at h
  split at h
  · rename_i hsees
    obtain ⟨rfl, rfl⟩ := Prod.mk.inj (Except.ok.inj h)
    obtain ⟨direction, hdirection, hbehind⟩ := Cursor.left_of_sees hsees
    exact ⟨_, .descending hword hfill hdirection, by rw [hleft, hbehind, List.append_assoc]; rfl⟩
  · obtain ⟨rfl, rfl⟩ := Prod.mk.inj (Except.ok.inj h)
    obtain ⟨direction, hdirection, hbehind⟩ := Cursor.exists_filler .ascending behind
    exact ⟨_, .ascending hword hfill hdirection, by rw [hleft, hbehind, List.append_assoc]; rfl⟩

/-- A clause takes the tokens that it may be written as and is written into the query. -/
theorem clause_spelled (hleft : cursor.left = word :: rest)
    (h : clause query word cursor = .ok (query', next)) :
    ∃ found words, Clause.Spells found words ∧ cursor.left = words ++ next.left ∧
      query' = found.writeTo query := by
  have hadvanced : cursor.left = word :: (cursor.advance 1).left := by
    rw [Cursor.left_advance, hleft]
    rfl
  unfold clause at h
  simp only at h
  split at h
  · rename_i kind hkind
    obtain ⟨⟨join, behind⟩, hjoin, h⟩ := Action.of_bind_eq_ok h
    obtain ⟨rfl, rfl⟩ := Prod.mk.inj (Except.ok.inj h)
    obtain ⟨words, hwords, hsplit⟩ := joinClause_spelled hleft hkind hjoin
    exact ⟨.join join, words, .join hwords, hsplit, rfl⟩
  split at h
  · rename_i haccepts
    obtain ⟨⟨conditions, behind⟩, hconditions, h⟩ := Action.of_bind_eq_ok h
    obtain ⟨rfl, rfl⟩ := Prod.mk.inj (Except.ok.inj h)
    obtain ⟨words, hinside, hread, hsplit⟩ := conditionClause_spelled hconditions
    exact ⟨.filter conditions, word :: words, .filter (Keyword.accepts_iff.1 haccepts) hinside hread,
      by rw [hadvanced, hsplit]; rfl, rfl⟩
  split at h
  · rename_i haccepts
    obtain ⟨⟨column, behind⟩, hfield, h⟩ := Action.of_bind_eq_ok h
    obtain ⟨rfl, rfl⟩ := Prod.mk.inj (Except.ok.inj h)
    obtain ⟨fill, hfill, hsplit⟩ := Cursor.exists_filler .byWord (cursor.advance 1)
    rw [Cursor.left_of_field hfield] at hsplit
    exact ⟨.group column, _, .group (.column (Keyword.accepts_iff.1 haccepts) hfill),
      by rw [hadvanced, hsplit]; simp, rfl⟩
  split at h
  · rename_i haccepts
    obtain ⟨⟨conditions, behind⟩, hconditions, h⟩ := Action.of_bind_eq_ok h
    obtain ⟨rfl, rfl⟩ := Prod.mk.inj (Except.ok.inj h)
    obtain ⟨fill, hfill, hfilled⟩ := Cursor.exists_filler .havingFiller (cursor.advance 1)
    obtain ⟨words, hinside, hread, hsplit⟩ := conditionClause_spelled hconditions
    exact ⟨.having conditions, _, .having (Keyword.accepts_iff.1 haccepts) hfill hinside hread,
      by rw [hadvanced, hfilled, hsplit]; simp, rfl⟩
  split at h
  · rename_i haccepts
    obtain ⟨⟨order, behind⟩, horder, h⟩ := Action.of_bind_eq_ok h
    obtain ⟨rfl, rfl⟩ := Prod.mk.inj (Except.ok.inj h)
    obtain ⟨words, hwords, hsplit⟩ := orderClause_spelled (Keyword.accepts_iff.1 haccepts) horder
    exact ⟨.order order, word :: words, .order hwords, by rw [hadvanced, hsplit]; rfl, rfl⟩
  split at h
  · rename_i haccepts
    obtain ⟨⟨n, behind⟩, hinteger, h⟩ := Action.of_bind_eq_ok h
    obtain ⟨rfl, rfl⟩ := Prod.mk.inj (Except.ok.inj h)
    obtain ⟨token, hread, hsplit⟩ := Cursor.left_of_integer hinteger
    exact ⟨.limit n, _, .limit (Keyword.accepts_iff.1 haccepts) hread,
      by rw [hadvanced, hsplit]; rfl, rfl⟩
  split at h
  · rename_i haccepts
    obtain ⟨⟨n, behind⟩, hinteger, h⟩ := Action.of_bind_eq_ok h
    obtain ⟨rfl, rfl⟩ := Prod.mk.inj (Except.ok.inj h)
    obtain ⟨token, hread, hsplit⟩ := Cursor.left_of_integer hinteger
    exact ⟨.offset n, _, .offset (Keyword.accepts_iff.1 haccepts) hread,
      by rw [hadvanced, hsplit]; rfl, rfl⟩
  · exact absurd h Action.throw_ne_ok

/-- The tokens behind the source of a query are those of its clauses, one behind the other. -/
theorem clauses_spelled {fuel : Nat} (h : clauses fuel query cursor = .ok query')
    (hfuel : cursor.left.length ≤ fuel) : ∃ found pieces, List.Forall₂ Clause.Spells found pieces ∧
      cursor.left = pieces.flatten ∧ query' = found.foldl Clause.writeTo query := by
  induction fuel generalizing query cursor with
  | zero =>
    obtain rfl := Except.ok.inj h
    exact ⟨[], [], .nil, List.length_eq_zero_iff.1 (Nat.le_zero.1 hfuel), rfl⟩
  | succ fuel ih =>
    rw [clauses] at h
    split at h
    · rename_i hleft
      obtain rfl := Except.ok.inj h
      exact ⟨[], [], .nil, hleft, rfl⟩
    · rename_i word rest hleft
      obtain ⟨⟨query'', next⟩, hclause, h⟩ := Action.of_bind_eq_ok h
      obtain ⟨first, words, hfirst, hsplit, rfl⟩ := clause_spelled hleft hclause
      have hshorter : next.left.length ≤ fuel := by
        have hsome := hfirst.length_pos
        rw [hsplit, List.length_append] at hfuel
        omega
      obtain ⟨found, pieces, hfound, hmore, rfl⟩ := ih h hshorter
      exact ⟨first :: found, words :: pieces, .cons hfirst hfound, by rw [hsplit, hmore]; rfl, rfl⟩

/-! ### Queries -/

/-- Whether words spell a query by its fields, its source and clauses, one behind the other. -/
def SpellsQuery (query : Query) (found : List Clause) (words : List String) : Prop :=
  ∃ front pieces, words = front ++ query.table :: pieces.flatten ∧ SpellsFields query.fields front ∧
    List.Forall₂ Clause.Spells found pieces

/-- What clauses make of the fields and the source of a query. -/
def written (query : Query) (found : List Clause) : Query :=
  found.foldl Clause.writeTo { Query.all query.table with fields := query.fields }

/-- Whether a query is what its clauses make of it: it holds every join, and every other clause unless a
later one takes its place, when it is as if the earlier one had not been there. -/
structure HoldsClauses (query : Query) (found : List Clause) : Prop where
  result : written query found = query
  joins : query.joins = found.filterMap Clause.join?
  kept : ∀ before clause after, found = before ++ clause :: after →
    (∀ later ∈ after, later.overwrites clause = false) → clause.IsIn query
  dropped : ∀ before clause after, found = before ++ clause :: after →
    (∃ later ∈ after, later.overwrites clause = true) → written query (before ++ after) = query

theorem holdsClauses_of_written {query : Query} {found : List Clause}
    (h : written query found = query) : HoldsClauses query found where
  result := h
  joins := by
    have hjoins := Clause.joins_foldl found { Query.all query.table with fields := query.fields }
    exact (congrArg Query.joins h).symm.trans hjoins
  kept before clause after hfound hafter := by
    rw [written, hfound, List.foldl_append, List.foldl_cons] at h
    rw [← h]
    exact (clause.isIn_writeTo _).foldl hafter
  dropped before clause after hfound hlater := by
    rw [written, hfound, List.foldl_append, List.foldl_cons, Clause.foldl_overwritten _ hlater] at h
    rw [written, List.foldl_append, h]

/-- The word behind the fields names the source. -/
theorem exists_source {words : List String} {count : Nat} (h : fieldCount? words = some count) :
    ∃ word, Keyword.source.Spells word ∧ words = words.take count ++ word :: words.drop (count + 1) := by
  obtain ⟨hlt, haccepts, -⟩ := List.findIdx?_eq_some_iff_getElem.1 h
  have hprefix := List.takeWhile_prefix (p := fun word => !Keyword.startsClause word) (l := words)
  have hcount : count < words.length := Nat.lt_of_lt_of_le hlt hprefix.length_le
  have hword := hprefix.getElem hlt
  refine ⟨words[count], Keyword.accepts_iff.1 (hword ▸ haccepts), ?_⟩
  rw [List.getElem_cons_drop, List.take_append_drop]

/-- A query is its fields, its source and its clauses. -/
theorem selection_spelled (h : selection cursor = .ok (.select query)) :
    ∃ found, SpellsQuery query found cursor.left ∧ written query found = query := by
  have hbehind {fields : List String} {next : Cursor}
      (h : (do
        let found ← next.name "table name"
        return Command.select
          (← clauses found.2.left.length { Query.all found.1 with fields } found.2))
          = .ok (.select query)) :
      query.fields = fields ∧ ∃ found pieces, next.left = query.table :: pieces.flatten ∧
        List.Forall₂ Clause.Spells found pieces ∧ written query found = query := by
    obtain ⟨⟨table, behind⟩, hname, h⟩ := Action.of_bind_eq_ok h
    obtain ⟨query', hclauses, h⟩ := Action.of_bind_eq_ok h
    obtain rfl := Command.select.inj (Except.ok.inj h)
    obtain ⟨found, pieces, hfound, hleft, hquery⟩ := clauses_spelled hclauses (Nat.le_refl _)
    obtain ⟨htable, hfields⟩ := Clause.source_foldl found { Query.all table with fields }
    rw [← hquery] at htable hfields
    have htable : query'.table = table := htable
    have hfields : query'.fields = fields := hfields
    refine ⟨hfields, found, pieces, ?_, hfound, ?_⟩
    · rw [Cursor.left_of_name hname, htable, hleft]
    · rw [written, htable, hfields]
      exact hquery.symm
  unfold selection at h
  split at h
  · obtain ⟨-, -, h⟩ := Action.of_bind_eq_ok h
    exact absurd (Except.ok.inj h) (by simp)
  simp only at h
  split at h
  · exact absurd h Action.throw_ne_ok
  · rename_i count hcount
    obtain ⟨fields, hfields, h⟩ := Action.of_bind_eq_ok h
    obtain ⟨word, hword, hsplit⟩ := exists_source hcount
    obtain ⟨rfl, found, pieces, hleft, hfound, hquery⟩ := hbehind h
    rw [Cursor.left_advance] at hleft
    rw [hleft] at hsplit
    exact ⟨found, ⟨_, pieces, hsplit.trans (List.append_cons _ _ _), .listed hfields hword, hfound⟩,
      hquery⟩
  · obtain ⟨hfields, found, pieces, hleft, hfound, hquery⟩ := @hbehind ["*"] cursor h
    exact ⟨found, ⟨[], pieces, hleft, hfields ▸ .all, hfound⟩, hquery⟩

/-- A query is read behind a verb for queries only. -/
theorem selection_of_commandOf {read : List Char → Except Error Command} {verb : String}
    {cursor : Cursor} {query : Query} (h : commandOf read verb cursor = .ok (.select query)) :
    Keyword.select.Spells verb ∧ selection cursor = .ok (.select query) := by
  have hother {result : Except Error Command} (hreads : Reads (· ≠ .select query) result)
      (hresult : result = .ok (.select query)) :
      Keyword.select.Spells verb ∧ selection cursor = .ok (.select query) :=
    absurd rfl (hreads _ hresult)
  unfold commandOf at h
  iterate 11 rw [ite_eq_iff] at h
  rcases h with ⟨-, h⟩ | ⟨-, h⟩
  · exact hother (.creation (by simp) (by simp) (by simp) (by simp) _) h
  rcases h with ⟨-, h⟩ | ⟨-, h⟩
  · exact hother (.insertion (by simp) _) h
  rcases h with ⟨hverb, h⟩ | ⟨-, h⟩
  · exact ⟨Keyword.accepts_iff.1 hverb, h⟩
  rcases h with ⟨-, h⟩ | ⟨-, h⟩
  · exact hother (.change (by simp) _) h
  rcases h with ⟨-, h⟩ | ⟨-, h⟩
  · exact hother (.deletion (by simp) _) h
  rcases h with ⟨-, h⟩ | ⟨-, h⟩
  · exact hother (.indexOn (by simp) _) h
  rcases h with ⟨-, h⟩ | ⟨-, h⟩
  · exact hother (.wordSearch (by simp) _) h
  iterate 3
    rcases h with ⟨-, h⟩ | ⟨-, h⟩
    · exact hother (.transaction (by simp) _) h
  rcases h with ⟨-, h⟩ | ⟨-, h⟩
  · exact hother (.nodeRole (by simp) _) h
  · exact hother (.throw _) h

/-- A statement that asks for rows is a verb, fields, a source and clauses, in any order and any number.
Of each clause the query holds what was written, unless a later clause of the same kind takes its place:
nothing refuses the second one, and of the first one nothing is left. -/
theorem clauses_of_parse {text : String} {query : Query} (h : parse text = .ok (.select query)) :
    ∃ verb words found, tokens (clean text.toList) = verb :: words ∧ Keyword.select.Spells verb ∧
      SpellsQuery query found words ∧ HoldsClauses query found := by
  rw [parse, readWithin, Cursor.start] at h
  cases htokens : tokens (clean text.toList) with
  | nil =>
    rw [htokens] at h
    exact absurd h (by simp)
  | cons verb words =>
    rw [htokens] at h
    obtain ⟨hverb, hselection⟩ := selection_of_commandOf h
    obtain ⟨found, hspells, hwritten⟩ := selection_spelled hselection
    exact ⟨verb, words, found, rfl, hverb, hspells, holdsClauses_of_written hwritten⟩

/-- The second of two filters is all that is left of them. -/
theorem clauses_of_parse_twoFilters :
    parse "SELECT * FROM t WHERE a = 1 LIMIT 5 WHERE b = 2"
        = .ok (.select { Query.all "t" with conditions := [⟨"b", .equal, "2", none⟩], limit := 5 }) ∧
      ∃ verb words found,
        tokens (clean "SELECT * FROM t WHERE a = 1 LIMIT 5 WHERE b = 2".toList) = verb :: words ∧
        Keyword.select.Spells verb ∧
        SpellsQuery { Query.all "t" with conditions := [⟨"b", .equal, "2", none⟩], limit := 5 } found
          words ∧
        HoldsClauses { Query.all "t" with conditions := [⟨"b", .equal, "2", none⟩], limit := 5 } found :=
  have h : parse "SELECT * FROM t WHERE a = 1 LIMIT 5 WHERE b = 2"
      = .ok (.select { Query.all "t" with conditions := [⟨"b", .equal, "2", none⟩], limit := 5 }) := by
    decide +kernel
  ⟨h, clauses_of_parse h⟩

end Statement

end FlatFileDb
