import FlatFileDb.Proofs.Action
import FlatFileDb.Proofs.Rows
import FlatFileDb.Statement.Parser
import Mathlib.Logic.Basic
import Mathlib.Tactic.SplitIfs

/-!
# The names and rows in a statement

The parser takes nothing but valid names for tables, views, triggers and columns. So a command that
comes from a statement names files by them, and no slash or point gets into the name of a file. A row
to insert is what is left of the statement, trimmed, so it is never blank.
-/

namespace FlatFileDb

/-- Whether the names of all sources of a query are valid. -/
def Query.isWellNamed (query : Query) : Bool :=
  Name.isValid query.table && query.joins.all fun join => Name.isValid join.table

/-- Whether the names by which a command defines, changes or asks for something are valid. -/
def Command.isWellNamed : Command → Bool
  | createTable table _ => Name.isValid table
  | insert table _ => Name.isValid table
  | update table _ _ => Name.isValid table
  | delete table _ => Name.isValid table
  | createIndex _ table column => Name.isValid table && Name.isValid column
  | createView name _ => Name.isValid name
  | createTrigger definition => Name.isValid definition.name && Name.isValid definition.table
  | select query => query.isWellNamed
  | search table column _ => Name.isValid table && Name.isValid column
  | _ => true

/-- Whether a row to insert is not blank. -/
def Command.hasFilledRow : Command → Bool
  | insert _ row => Text.isFilled row
  | _ => true

/-- A text that is trimmed at its end is empty or has a character that is not blank. -/
theorem Text.exists_of_trimEnd {s : List Char} (h : Text.trimEnd s ≠ []) :
    ∃ c ∈ Text.trimEnd s, Text.isBlank c = false := by
  have hreverse : s.reverse.dropWhile Text.isBlank ≠ [] := by
    intro hnone
    exact h (by rw [Text.trimEnd, hnone]; rfl)
  refine ⟨(s.reverse.dropWhile Text.isBlank).head hreverse, ?_, ?_⟩
  · rw [Text.trimEnd, List.mem_reverse]
    exact List.head_mem hreverse
  · exact List.head_dropWhile_not Text.isBlank hreverse

namespace Statement

open Cursor FlatFileDb.Action

variable {cursor rest : Cursor} {command : Command}

theorem name_eq_ok {what name : String} (h : cursor.name what = .ok (name, rest)) :
    Name.isValid name = true := by
  obtain ⟨⟨token, next⟩, -, h⟩ := of_bind_eq_ok h
  simp only at h
  split at h
  · rename_i hvalid
    have heq := Except.ok.inj h
    rw [Prod.mk.injEq] at heq
    exact heq.1 ▸ hvalid
  · exact absurd h throw_ne_ok

theorem tableColumn_eq_ok {table column : String}
    (h : tableColumn cursor = .ok (table, column, rest)) :
    Name.isValid table = true ∧ Name.isValid column = true := by
  obtain ⟨⟨table', next⟩, htable, h⟩ := of_bind_eq_ok h
  obtain ⟨next, -, h⟩ := of_bind_eq_ok h
  obtain ⟨⟨column', next⟩, hcolumn, h⟩ := of_bind_eq_ok h
  have heq := Except.ok.inj h
  rw [Prod.mk.injEq, Prod.mk.injEq] at heq
  obtain ⟨rfl, rfl, -⟩ := heq
  exact ⟨name_eq_ok htable, name_eq_ok hcolumn⟩

/-! ### Clauses -/

theorem joinClause_eq_ok {kind : JoinKind} {join : Join}
    (h : joinClause kind cursor = .ok (join, rest)) : Name.isValid join.table = true := by
  unfold joinClause at h
  extract_lets behind at h
  have hbehind {next : Cursor} (h : behind next = .ok (join, rest)) :
      Name.isValid join.table = true := by
    obtain ⟨⟨table, next⟩, htable, h⟩ := of_bind_eq_ok h
    obtain ⟨next, -, h⟩ := of_bind_eq_ok h
    obtain ⟨⟨left, next⟩, -, h⟩ := of_bind_eq_ok h
    obtain ⟨⟨symbol, next⟩, -, h⟩ := of_bind_eq_ok h
    simp only at h
    split at h
    · exact absurd h (by simp [throw, throwThe, MonadExceptOf.throw, bind, Except.bind])
    · obtain ⟨⟨right, next⟩, -, h⟩ := of_bind_eq_ok h
      rw [← (Prod.mk.inj (Except.ok.inj h)).1]
      exact name_eq_ok htable
  split at h
  · exact hbehind h
  · obtain ⟨next, -, h⟩ := of_bind_eq_ok h
    exact hbehind h

/-- A clause adds no source but that of a join. -/
theorem isWellNamed_clause {query query' : Query} {word : String}
    (hquery : query.isWellNamed = true) (h : clause query word cursor = .ok (query', rest)) :
    query'.isWellNamed = true := by
  have hother {α : Type} {step : Except Error (α × Cursor)} {f : α × Cursor → Query × Cursor}
      (h : step >>= (fun found => pure (f found)) = .ok (query', rest))
      (hf : ∀ found, (f found).1.isWellNamed = true) : query'.isWellNamed = true := by
    obtain ⟨found, -, h⟩ := of_bind_eq_ok h
    have hfound := hf found
    rwa [Except.ok.inj h] at hfound
  unfold clause at h
  simp only at h
  split at h
  · obtain ⟨⟨join, next⟩, hjoin, h⟩ := of_bind_eq_ok h
    rw [← (Prod.mk.inj (Except.ok.inj h)).1]
    rw [Query.isWellNamed, Bool.and_eq_true] at hquery ⊢
    rw [List.all_append, hquery.2, List.all_cons, joinClause_eq_ok hjoin]
    exact ⟨hquery.1, rfl⟩
  · split_ifs at h
    all_goals exact hother h fun _ => hquery

theorem isWellNamed_clauses {fuel : Nat} {query query' : Query}
    (hquery : query.isWellNamed = true) (h : clauses fuel query cursor = .ok query') :
    query'.isWellNamed = true := by
  induction fuel generalizing query cursor with
  | zero => rwa [← Except.ok.inj h]
  | succ fuel ih =>
    rw [clauses] at h
    split at h
    · rwa [← Except.ok.inj h]
    · obtain ⟨⟨next, rest⟩, hclause, h⟩ := of_bind_eq_ok h
      exact ih (isWellNamed_clause hquery hclause) h

/-! ### What is read -/

variable {p : Command → Prop} {read : List Char → Except Error Command}

/-- Whether what is read, if anything, satisfies `p`. -/
def Reads (p : Command → Prop) (result : Except Error Command) : Prop :=
  ∀ command, result = .ok command → p command

namespace Reads

variable {α : Type}

theorem pure (h : p command) : Reads p (Pure.pure command) :=
  fun _ hread => Except.ok.inj hread ▸ h

theorem throw (e : Error) : Reads p (throw e) :=
  fun _ hread => absurd hread throw_ne_ok

theorem bind {first : Except Error α} {next : α → Except Error Command}
    (h : ∀ a, first = .ok a → Reads p (next a)) : Reads p (first >>= next) := by
  intro command hread
  obtain ⟨a, hfirst, hread⟩ := of_bind_eq_ok hread
  exact h a hfirst command hread

theorem ite {c : Prop} [Decidable c] {yes no : Except Error Command} (hyes : Reads p yes)
    (hno : Reads p no) : Reads p (if c then yes else no) := by
  by_cases h : c
  · rwa [if_pos h]
  · rwa [if_neg h]

/-- What is left of a text behind some words ends with a character that is not blank. -/
theorem insertion
    (h : ∀ table row, Name.isValid table = true → Text.isFilled row = true → p (.insert table row))
    (cursor : Cursor) : Reads p (insertion cursor) := by
  refine bind fun (table, next) htable => bind fun row hrow => pure (h _ _ (name_eq_ok htable) ?_)
  unfold Cursor.someRawRest at hrow
  extract_lets rest at hrow
  split at hrow
  · exact absurd hrow (by simp)
  · rename_i hrest
    obtain rfl := Except.ok.inj hrow
    rw [Bool.not_eq_true, List.isEmpty_eq_false_iff] at hrest
    obtain ⟨c, hc, hblank⟩ := Text.exists_of_trimEnd hrest
    rw [Text.isFilled, String.toList_ofList, Bool.not_eq_true', List.all_eq_false]
    exact ⟨c, hc, by simp [hblank]⟩

theorem selection (hquery : ∀ query : Query, query.isWellNamed = true → p (.select query))
    (hdatabases : p .showDatabases) (cursor : Cursor) : Reads p (selection cursor) := by
  have hclauses (query : Query) (next : Cursor) (htable : Name.isValid query.table = true)
      (hjoins : query.joins = []) :
      Reads p (do return Command.select (← clauses next.left.length query next)) :=
    bind fun _ hread => pure (hquery _
      (isWellNamed_clauses (by simp [Query.isWellNamed, htable, hjoins]) hread))
  refine ite (bind fun _ _ => pure hdatabases) ?_
  dsimp only
  split
  · exact throw _
  · exact bind fun _ _ => bind fun (_, _) htable => hclauses _ _ (name_eq_ok htable) rfl
  · exact bind fun (_, _) htable => hclauses _ _ (name_eq_ok htable) rfl

theorem change (h : ∀ table assignments conditions, Name.isValid table = true →
    p (.update table assignments conditions)) (cursor : Cursor) : Reads p (change cursor) := by
  refine bind fun (table, next) htable => bind fun behind _ => ?_
  dsimp only
  refine ite (bind fun _ hno => absurd hno throw_ne_ok) (bind fun found _ => ?_)
  split
  · exact pure (h _ _ _ (name_eq_ok htable))
  · exact bind fun _ _ => pure (h _ _ _ (name_eq_ok htable))

theorem deletion
    (h : ∀ table conditions, Name.isValid table = true → p (.delete table conditions))
    (cursor : Cursor) : Reads p (deletion cursor) :=
  bind fun _ _ => bind fun (_, _) htable => ite (pure (h _ _ (name_eq_ok htable)))
    (bind fun _ _ => bind fun _ _ => pure (h _ _ (name_eq_ok htable)))

theorem indexOn {kind : IndexKind} (h : ∀ table column, Name.isValid table = true →
    Name.isValid column = true → p (.createIndex kind table column)) (cursor : Cursor) :
    Reads p (indexOn kind cursor) :=
  bind fun (_, _, _) hnames => bind fun _ _ =>
    pure (h _ _ (tableColumn_eq_ok hnames).1 (tableColumn_eq_ok hnames).2)

theorem viewDefinition (h : ∀ name query, Name.isValid name = true → p (.createView name query))
    (cursor : Cursor) : Reads p (viewDefinition read cursor) := by
  refine bind fun (_, _) hname => bind fun _ _ => bind fun _ _ => bind fun command _ => ?_
  cases command with
  | select query => exact pure (h _ _ (name_eq_ok hname))
  | _ => exact throw _

theorem triggerDefinition (h : ∀ definition : TriggerDefinition, Name.isValid definition.name = true →
    Name.isValid definition.table = true → p (.createTrigger definition)) (cursor : Cursor) :
    Reads p (triggerDefinition read cursor) := by
  refine bind fun (_, _) hname => bind fun _ _ => bind fun (word, _) _ => ?_
  dsimp only
  cases Keyword.operation? word with
  | none => exact throw _
  | some event =>
    exact bind fun _ _ => bind fun (_, _) htable => bind fun _ _ => bind fun _ _ => bind fun _ _ =>
      pure (h _ (name_eq_ok hname) (name_eq_ok htable))

theorem tableDefinition
    (h : ∀ table definition, Name.isValid table = true → p (.createTable table definition))
    (cursor : Cursor) : Reads p (tableDefinition cursor) :=
  bind fun (_, _) htable => bind fun _ _ => pure (h _ _ (name_eq_ok htable))

theorem creation (hview : ∀ name query, Name.isValid name = true → p (.createView name query))
    (htrigger : ∀ definition : TriggerDefinition, Name.isValid definition.name = true →
      Name.isValid definition.table = true → p (.createTrigger definition))
    (hindex : ∀ table column, Name.isValid table = true → Name.isValid column = true →
      p (.createIndex .words table column))
    (htable : ∀ table definition, Name.isValid table = true → p (.createTable table definition))
    (cursor : Cursor) : Reads p (creation read cursor) :=
  ite (viewDefinition hview _) <| ite (triggerDefinition htrigger _) <|
  ite (indexOn hindex _) (tableDefinition htable _)

theorem wordSearch (h : ∀ table column word, Name.isValid table = true →
    Name.isValid column = true → p (.search table column word)) (cursor : Cursor) :
    Reads p (wordSearch cursor) := by
  refine bind fun (_, _, _) hnames => bind fun _ _ => ?_
  obtain ⟨htable, hcolumn⟩ := tableColumn_eq_ok hnames
  exact ite (throw _) (pure (h _ _ _ htable hcolumn))

theorem transaction {control : TransactionControl} (h : p (.transaction control))
    (cursor : Cursor) : Reads p (transaction control cursor) :=
  bind fun _ _ => pure h

theorem nodeRole (h : ∀ role, p (.become role)) (cursor : Cursor) : Reads p (nodeRole cursor) := by
  refine ite (bind fun _ _ => pure (h _)) (ite (bind fun _ _ => bind fun _ _ => pure (h _)) ?_)
  split
  · exact throw _
  · exact throw _

/-- A statement is read by its first token. -/
theorem parse (h : ∀ read verb cursor, Reads p (commandOf read verb cursor)) (text : String) :
    Reads p (parse text) := by
  intro command hread
  rw [Statement.parse, readWithin] at hread
  split at hread
  · exact absurd hread (by simp)
  · exact h _ _ _ command hread

end Reads

theorem isWellNamed_commandOf (verb : String) (cursor : Cursor) :
    Reads (fun command => command.isWellNamed = true) (commandOf read verb cursor) := by
  have hboth {a b : String} (ha : Name.isValid a = true) (hb : Name.isValid b = true) :
      (Name.isValid a && Name.isValid b) = true := by
    rw [ha, hb, Bool.and_self]
  exact .ite (.creation (fun _ _ h => h) (fun _ => hboth) (fun _ _ => hboth) (fun _ _ h => h) _) <|
    .ite (.insertion (fun _ _ htable _ => htable) _) <| .ite (.selection (fun _ h => h) (by rfl) _) <|
    .ite (.change (fun _ _ _ h => h) _) <| .ite (.deletion (fun _ _ h => h) _) <|
    .ite (.indexOn (fun _ _ => hboth) _) <| .ite (.wordSearch (fun _ _ _ => hboth) _) <|
    .ite (.transaction (by rfl) _) <| .ite (.transaction (by rfl) _) <|
    .ite (.transaction (by rfl) _) <| .ite (.nodeRole (fun _ => rfl) _) (.throw _)

/-- What a statement defines, changes or asks for has valid names. -/
theorem isWellNamed_of_parse {text : String} (h : parse text = .ok command) :
    command.isWellNamed = true :=
  Reads.parse (fun _ => isWellNamed_commandOf) text command h

theorem hasFilledRow_commandOf (verb : String) (cursor : Cursor) :
    Reads (fun command => command.hasFilledRow = true) (commandOf read verb cursor) :=
  .ite (.creation (fun _ _ _ => rfl) (fun _ _ _ => rfl) (fun _ _ _ _ => rfl) (fun _ _ _ => rfl) _) <|
  .ite (.insertion (fun _ _ _ hrow => hrow) _) <| .ite (.selection (fun _ _ => rfl) (by rfl) _) <|
  .ite (.change (fun _ _ _ _ => rfl) _) <| .ite (.deletion (fun _ _ _ => rfl) _) <|
  .ite (.indexOn (fun _ _ _ _ => rfl) _) <| .ite (.wordSearch (fun _ _ _ _ _ => rfl) _) <|
  .ite (.transaction (by rfl) _) <| .ite (.transaction (by rfl) _) <|
  .ite (.transaction (by rfl) _) <| .ite (.nodeRole (fun _ => rfl) _) (.throw _)

/-- A statement inserts no blank row. -/
theorem isFilled_of_parse {text table row : String} (h : parse text = .ok (.insert table row)) :
    Text.isFilled row = true :=
  Reads.parse (fun _ => hasFilledRow_commandOf) text _ h

end Statement

end FlatFileDb
