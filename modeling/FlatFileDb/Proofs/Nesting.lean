import FlatFileDb.Proofs.TableFiles
import FlatFileDb.Proofs.View

/-!
# How deep views may lie

The query of a view names tables and views in turn, so that a query leads to a view, the view to
another one, and so on. Every view on the way takes one level of nesting. Views that lead to each other
in a circle are stored like any others, and such a way never ends.

Each way is followed along the run that it belongs to: a query that comes to an answer has come to an
answer of each of its views one level deeper, and one that misses a level misses it in one of them.
-/

namespace FlatFileDb

/-- The names of what a query reads, from the first to the last. -/
def Query.sources (query : Query) : List String :=
  query.table :: query.joins.map Join.table

namespace View

variable {disk : Disk} {database name : String} {query inner : Query} {names : List String}

/-- Whether a name stands for a view when a query reads from it. -/
def IsSource (disk : Disk) (database name : String) : Prop :=
  Engine.hasSchema disk database name = false ∧ isPresent disk database name = true

/-- Whether a view is stored with a query. -/
def Holds (disk : Disk) (database name : String) (query : Query) : Prop :=
  ∃ text, load disk database name = .ok text ∧ Statement.parse text = .ok (.select query)

/-- The views that a query leads to one after the other: the query reads from the first of them, and
the query of each from the next. -/
inductive Leads (disk : Disk) (database : String) : Query → List String → Prop
  | one {query : Query} {name : String} (hname : name ∈ query.sources)
      (hview : IsSource disk database name) : Leads disk database query [name]
  | more {query inner : Query} {name : String} {names : List String} (hname : name ∈ query.sources)
      (hview : IsSource disk database name) (hholds : Holds disk database name inner)
      (hrest : Leads disk database inner names) : Leads disk database query (name :: names)

theorem Holds.unique {other : Query} (h : Holds disk database name query)
    (hother : Holds disk database name other) : query = other := by
  obtain ⟨text, hload, hparse⟩ := h
  obtain ⟨again, hagain, hparse'⟩ := hother
  obtain rfl := Except.ok.inj (hload.symm.trans hagain)
  exact Command.select.inj (Except.ok.inj (hparse.symm.trans hparse'))

/-! ### Views in a circle -/

namespace Leads

theorem length_pos (h : Leads disk database query names) : 0 < names.length := by
  cases h <;> simp

/-- A way may be left at any of its views for another way that the view leads to. -/
theorem turn (h : Leads disk database query names) (hname : name ∈ names)
    (hholds : Holds disk database name inner) {other : List String}
    (hother : Leads disk database inner other) :
    ∃ longer, Leads disk database query longer ∧ other.length < longer.length := by
  induction h with
  | @one query first hfirst hview =>
    obtain rfl := List.mem_singleton.1 hname
    exact ⟨_, .more hfirst hview hholds hother, Nat.lt_succ_self _⟩
  | @more query between first names hfirst hview hbetween hrest ih =>
    rcases List.mem_cons.1 hname with rfl | hlater
    · exact ⟨_, .more hfirst hview hholds hother, Nat.lt_succ_self _⟩
    · obtain ⟨longer, hlonger, hless⟩ := ih hlater
      exact ⟨_, .more hfirst hview hbetween hlonger, Nat.lt_succ_of_lt hless⟩

/-- A query that leads to its own view leads to ways of any length: each goes once around and then on
like one of the others. -/
theorem exists_longer_of_mem (h : Leads disk database inner names)
    (hholds : Holds disk database name inner) (hname : name ∈ names) (length : Nat) :
    ∃ longer, Leads disk database inner longer ∧ length < longer.length := by
  induction length with
  | zero => exact ⟨names, h, h.length_pos⟩
  | succ length ih =>
    obtain ⟨other, hother, hless⟩ := ih
    obtain ⟨longer, hlonger, hmore⟩ := h.turn hname hholds hother
    exact ⟨longer, hlonger, by omega⟩

/-- Where a view comes twice on a way, some way is longer than any given length. -/
theorem exists_longer (h : Leads disk database query names) (htwice : ¬ names.Nodup)
    (length : Nat) : ∃ longer, Leads disk database query longer ∧ length < longer.length := by
  induction h with
  | one hname hview => exact absurd (List.nodup_singleton _) htwice
  | @more query inner first names hfirst hview hholds hrest ih =>
    have hinner : ∃ longer, Leads disk database inner longer ∧ length < longer.length := by
      by_cases hagain : first ∈ names
      · exact hrest.exists_longer_of_mem hholds hagain length
      · exact ih fun hnodup => htwice (List.nodup_cons.2 ⟨hagain, hnodup⟩)
    obtain ⟨longer, hlonger, hless⟩ := hinner
    exact ⟨first :: longer, .more hfirst hview hholds hlonger, Nat.lt_succ_of_lt hless⟩

end Leads

end View

/-- Whatever failed, no level of nesting was missing. -/
def Error.IsShallow (failure : Error) : Prop :=
  failure.isNesting = false

namespace Error

variable {failure : Error}

theorem IsOfQuery.isShallow (h : failure.IsOfQuery) : failure.IsShallow := by
  cases failure with
  | nestingTooDeep limit => exact h.elim nofun fun h => nomatch h.2
  | _ => rfl

theorem IsOfReading.isShallow (h : failure.IsOfReading) : failure.IsShallow := by
  cases failure with
  | nestingTooDeep limit => exact nomatch h
  | _ => rfl

end Error

namespace Engine

open View (IsSource Holds Leads)

variable {who : Identity} {database name : String} {query inner : Query} {names : List String}
  {executing : Executing} {condition : Option Condition} {e : Engine}

/-! ### Levels that suffice -/

theorem isShallow_tableSource (who : Identity) (database name : String)
    (condition : Option Condition) (e : Engine) :
    FailsAs Error.IsShallow (tableSource who database name condition e).1 := by
  have hschema : FailsAs Error.IsShallow (schema database name e).1 := by
    rw [schema_result]
    unfold knownSchema
    split
    · exact .ok _
    · refine .bind (Disk.failsAs_textOr rfl fun _ => rfl) fun text => ?_
      split
      · exact .pure _
      · exact .throw rfl
  have hrows (disk : Disk) : FailsAs Error.IsShallow (Table.rows disk database name) :=
    .bind (Disk.failsAs_textOr rfl fun _ => rfl) fun _ => .pure _
  exact .andThen hschema fun schema _ _ => .andThen (.ofExcept (.ite (.ok _) (.error rfl)))
    fun _ _ _ => .andThen (.readDisk (hrows _)) fun _ _ _ => .pure _

/-- Where a source misses a level, it is a view, and its query misses it. -/
theorem isShallow_source (hexecuting : IsSource e.disk database name →
      ∀ inner, Holds e.disk database name inner →
        FailsAs Error.IsShallow (executing who (.select inner) e).1) :
    FailsAs Error.IsShallow (source executing who database name condition e).1 := by
  unfold source
  rw [look_bind]
  split
  · exact isShallow_tableSource _ _ _ _ _
  next htable =>
  rw [look_bind]
  split
  case isFalse => exact .throw rfl
  case isTrue hpresent =>
  refine .andThen (.ofExcept (.ite (.ok _) (.error rfl))) fun _ e₁ hrole => ?_
  obtain rfl : e = e₁ := congrArg Prod.snd hrole
  refine .andThen (.readDisk (Disk.failsAs_textOr rfl fun _ => rfl)) fun text e₁ hread => ?_
  obtain rfl : e = e₁ := congrArg Prod.snd hread
  have hload : View.load e.disk database name = .ok text := congrArg Prod.fst hread
  refine .andThen (.ofExcept ((Statement.failsAs_parse text).mono fun _ =>
    Error.IsOfReading.isShallow)) fun command e₁ hcommand => ?_
  obtain ⟨hparse, rfl⟩ := Prod.mk.inj hcommand
  cases command with
  | select inner =>
    exact .andThen (hexecuting ⟨by simpa using htable, hpresent⟩ inner ⟨text, hload, hparse⟩)
      fun _ _ _ => .pure _
  | _ => exact .throw rfl

/-- A query misses no level where every way that it leads is shorter than there are levels. -/
theorem isShallow_executeWithin {budget : Nat}
    (hways : ∀ database names, who.requireDatabase = .ok database →
      Leads e.disk database query names → names.length < budget) (hbudget : 0 < budget) :
    FailsAs Error.IsShallow (executeWithin budget who (.select query) e).1 := by
  induction budget generalizing query e with
  | zero => exact absurd hbudget (Nat.lt_irrefl 0)
  | succ budget ih =>
  rw [executeWithin, perform_select]
  refine .andThen ?_ fun database e₁ hrequire => ?_
  · unfold Identity.requireDatabase
    split
    · exact .ite (.error rfl) (.ok _)
    · exact .error rfl
  obtain ⟨hdatabase, rfl⟩ := Prod.mk.inj hrequire
  -- A source that is a view lies on a way by itself, so that there is a level for its query.
  have hsource (name : String) (hname : name ∈ query.sources) (condition : Option Condition)
      (e' : Engine) (hquiet : Quiet e e') :
      FailsAs Error.IsShallow (source (executeWithin budget) who database name condition e').1 := by
    refine isShallow_source fun hview inner hholds => ?_
    rw [hquiet.disk] at hview hholds
    refine ih (fun database' names hsame hrest => ?_) ?_
    · obtain rfl := Except.ok.inj (hdatabase.symm.trans hsame)
      rw [hquiet.disk] at hrest
      exact Nat.lt_of_succ_lt_succ (hways _ _ hdatabase (.more hname hview hholds hrest))
    · exact Nat.lt_of_succ_lt_succ (hways _ _ hdatabase (.one hname hview))
  refine failsAs_select (fun _ => Error.IsOfQuery.isShallow) (observes_executeWithin budget) who
    (hsource _ (by simp [Query.sources]) _ e (refl e)) fun join hjoin e' hquiet =>
      hsource _ ?_ none e' hquiet
  exact List.mem_cons_of_mem _ (List.mem_map_of_mem hjoin)

/-! ### Levels that are taken -/

section Answers

variable (hquery : ∀ who query, Observes (executing who (.select query)))
include hquery

theorem source_of_joinSources {relation joined : Relation} {joins : List Join}
    (h : (joinSources executing who database relation joins e).1 = .ok joined) :
    ∀ join ∈ joins, ∃ found, (source executing who database join.table none e).1 = .ok found := by
  induction joins generalizing relation with
  | nil => simp
  | cons first rest ih =>
    have hrest (right : Relation) : Observes (Action.ofExcept (relation.join right first) >>=
        fun between => joinSources executing who database between rest) :=
      (Observes.ofExcept _).bind fun between => observes_joinSources hquery who database between rest
    obtain ⟨right, hright, h⟩ := (observes_source hquery who database first.table none).of_bind hrest h
    obtain ⟨between, -, h⟩ := (Observes.ofExcept (relation.join right first)).of_bind
      (fun between => observes_joinSources hquery who database between rest) h
    exact List.forall_mem_cons.2 ⟨⟨right, hright⟩, ih h⟩

/-- A query that comes to an answer has got all of its sources. -/
theorem source_of_select {outcome : Outcome}
    (h : (select executing who database query e).1 = .ok outcome) (hname : name ∈ query.sources) :
    ∃ condition found, (source executing who database name condition e).1 = .ok found := by
  have hjoins (first : Relation) := observes_joinSources hquery who database first query.joins
  obtain ⟨first, hfirst, h⟩ := (observes_source hquery who database query.table _).of_bind
    (fun first => (hjoins first).bind fun relation => .ofExcept (relation.answer query)) h
  obtain ⟨joined, hjoined, -⟩ :=
    (hjoins first).of_bind (fun relation => .ofExcept (relation.answer query)) h
  rcases List.mem_cons.1 hname with rfl | hjoin
  · exact ⟨_, first, hfirst⟩
  · obtain ⟨join, hmem, rfl⟩ := List.mem_map.1 hjoin
    obtain ⟨found, hfound⟩ := source_of_joinSources hquery hjoined join hmem
    exact ⟨none, found, hfound⟩

/-- A view that could be read from has had its query answered. -/
theorem answer_of_source (hview : IsSource e.disk database name) {found : Relation}
    (h : (source executing who database name condition e).1 = .ok found) :
    ∃ inner outcome, Holds e.disk database name inner ∧
      (executing who (.select inner) e).1 = .ok outcome := by
  obtain ⟨hschema, hpresent⟩ := hview
  unfold source at h
  rw [look_bind, hschema, if_neg (by simp), look_bind, hpresent, if_pos rfl] at h
  unfold viewSource at h
  rw [requireRole_user, Action.ofExcept_bind] at h
  dsimp only at h
  rw [readDisk, Action.read_bind] at h
  cases hload : View.load e.disk database name with
  | error failure =>
    rw [hload] at h
    cases h
  | ok text =>
  rw [hload] at h
  dsimp only at h
  rw [Action.ofExcept_bind] at h
  cases hparse : Statement.parse text with
  | error failure =>
    rw [hparse] at h
    cases h
  | ok command =>
  rw [hparse] at h
  cases command with
  | select inner =>
    obtain ⟨outcome, houtcome, -⟩ := (hquery who inner).of_bind (fun _ => .pure _) h
    exact ⟨inner, outcome, ⟨text, hload, hparse⟩, houtcome⟩
  | _ => cases h

end Answers

/-- A query that comes to an answer has had the queries of its views answered one level deeper. -/
theorem answer_of_executeWithin {budget : Nat} {outcome : Outcome}
    (hdatabase : who.requireDatabase = .ok database)
    (h : (executeWithin budget who (.select query) e).1 = .ok outcome)
    (hname : name ∈ query.sources) (hview : IsSource e.disk database name) :
    ∃ inner shown less, budget = less + 1 ∧ Holds e.disk database name inner ∧
      (executeWithin less who (.select inner) e).1 = .ok shown := by
  cases budget with
  | zero => exact nomatch h
  | succ budget =>
  rw [executeWithin, perform_select, hdatabase, Action.ofExcept_bind] at h
  obtain ⟨condition, found, hfound⟩ := source_of_select (observes_executeWithin budget) h hname
  obtain ⟨inner, shown, hholds, hshown⟩ :=
    answer_of_source (observes_executeWithin budget) hview hfound
  exact ⟨inner, shown, budget, rfl, hholds, hshown⟩

/-- Every way that a query leads is shorter than there were levels when it came to an answer. -/
theorem length_lt_of_answer {budget : Nat} {outcome : Outcome}
    (hdatabase : who.requireDatabase = .ok database) (hway : Leads e.disk database query names)
    (h : (executeWithin budget who (.select query) e).1 = .ok outcome) : names.length < budget := by
  induction hway generalizing budget outcome with
  | one hname hview =>
    obtain ⟨inner, shown, less, rfl, hholds, hshown⟩ :=
      answer_of_executeWithin hdatabase h hname hview
    cases less with
    | zero => exact nomatch hshown
    | succ less => simp
  | more hname hview hholds hrest ih =>
    obtain ⟨inner, shown, less, rfl, hsame, hshown⟩ :=
      answer_of_executeWithin hdatabase h hname hview
    obtain rfl := hholds.unique hsame
    exact Nat.succ_lt_succ (ih hshown)

/-- A query that leads to no way longer than there are levels of nesting never fails for a missing
level; and one that leads to a longer way, or to a view that leads back to itself, always fails. -/
theorem select_nesting (e : Engine) (who : Identity) (query : Query) :
    ((∀ database names, who.requireDatabase = .ok database →
        Leads e.disk database query names → names.length ≤ e.settings.nestingLimit) →
      ∀ limit, (executeAs who (.select query) e).1 ≠ .error (.nestingTooDeep limit)) ∧
    ∀ database names, who.requireDatabase = .ok database → Leads e.disk database query names →
      e.settings.nestingLimit < names.length ∨ ¬ names.Nodup →
      ∃ failure, (executeAs who (.select query) e).1 = .error failure := by
  have hrun : executeAs who (.select query) e
      = executeWithin (e.settings.nestingLimit + 1) who (.select query) e := rfl
  rw [hrun]
  refine ⟨fun hways limit hfails => ?_, fun database names hdatabase hway hlong => ?_⟩
  · have hshallow := isShallow_executeWithin (fun database names hdatabase hway =>
      Nat.lt_succ_of_le (hways database names hdatabase hway)) (Nat.succ_pos _) _ hfails
    exact absurd hshallow (by simp [Error.IsShallow, Error.isNesting])
  · obtain ⟨longer, hlonger, hless⟩ : ∃ longer, Leads e.disk database query longer ∧
        e.settings.nestingLimit < longer.length := by
      rcases hlong with hless | htwice
      · exact ⟨names, hway, hless⟩
      · exact hway.exists_longer htwice _
    cases hresult : (executeWithin (e.settings.nestingLimit + 1) who (.select query) e).1 with
    | error failure => exact ⟨failure, rfl⟩
    | ok outcome =>
      have hfits := length_lt_of_answer hdatabase hlonger hresult
      omega

end Engine

/-! ### Views over views -/

namespace View.Leads

variable {disk : Disk} {database name : String} {inner : Query} {names : List String}

/-- Everything in a table leads to no view. -/
theorem not_table (htable : Engine.hasSchema disk database name = true) :
    ¬ Leads disk database (.all name) names := by
  have hno (other : String) (hname : other ∈ (Query.all name).sources) :
      ¬ IsSource disk database other := by
    obtain rfl := List.mem_singleton.1 hname
    exact fun hview => absurd (htable.symm.trans hview.1) (by simp)
  rintro (⟨hname, hview⟩ | ⟨hname, hview, -, -⟩) <;> exact hno _ hname hview

/-- Everything in a view leads one view further than the query of the view. -/
theorem length_le_succ (hholds : Holds disk database name inner) {count : Nat}
    (hinner : ∀ names, Leads disk database inner names → names.length ≤ count)
    (h : Leads disk database (.all name) names) : names.length ≤ count + 1 := by
  cases h with
  | one hname hview => simp
  | more hname hview hother hrest =>
    obtain rfl := List.mem_singleton.1 hname
    obtain rfl := hholds.unique hother
    exact Nat.succ_le_succ (hinner _ hrest)

end View.Leads

namespace Run

/-- Three views over each other and two that lead to each other. -/
def stackedViews : Run :=
  .script "asep" "kantor"
    ["CREATE TABLE t id:INT", "INSERT t 1", "CREATE VIEW u AS SELECT * FROM t",
      "CREATE VIEW v AS SELECT * FROM u", "CREATE VIEW w AS SELECT * FROM v",
      "CREATE VIEW a AS SELECT * FROM b", "CREATE VIEW b AS SELECT * FROM a"]

/-- The views where two levels of nesting are allowed. -/
def twoLevels : Engine :=
  { stackedViews.last with settings := { Settings.standard with nestingLimit := 2 } }

theorem select_nesting_stackedViews :
    ((∀ database names, author.requireDatabase = .ok database →
        View.Leads twoLevels.disk database (.all "v") names →
        names.length ≤ twoLevels.settings.nestingLimit) ∧
      ∀ limit, (Engine.executeAs author (.select (.all "v")) twoLevels).1
        ≠ .error (.nestingTooDeep limit)) ∧
    (View.Leads twoLevels.disk "kantor" (.all "w") ["w", "v", "u"] ∧
      ∃ failure, (Engine.executeAs author (.select (.all "w")) twoLevels).1 = .error failure) ∧
    View.Leads twoLevels.disk "kantor" (.all "a") ["a", "b", "a"] ∧
      ∃ failure, (Engine.executeAs author (.select (.all "a")) twoLevels).1 = .error failure := by
  have htable : Engine.hasSchema twoLevels.disk "kantor" "t" = true := by decide +kernel
  have hviews : ∀ view ∈ [("u", "t"), ("v", "u"), ("w", "v"), ("a", "b"), ("b", "a")],
      Engine.hasSchema twoLevels.disk "kantor" view.1 = false ∧
        View.isPresent twoLevels.disk "kantor" view.1 = true ∧
        View.load twoLevels.disk "kantor" view.1 = .ok ("SELECT * FROM " ++ view.2) ∧
        Name.isValid view.2 = true := by decide +kernel
  have hholds (view : String × String) (hview : view ∈ _) :
      View.IsSource twoLevels.disk "kantor" view.1 ∧
        View.Holds twoLevels.disk "kantor" view.1 (.all view.2) :=
    have ⟨hschema, hpresent, hload, hname⟩ := hviews view hview
    ⟨⟨hschema, hpresent⟩, _, hload, Statement.parse_all hname⟩
  simp only [List.forall_mem_cons] at hholds
  obtain ⟨⟨hu, huText⟩, ⟨hv, hvText⟩, ⟨hw, hwText⟩, ⟨ha, haText⟩, ⟨hb, hbText⟩, -⟩ := hholds
  have hmem (name : String) : name ∈ (Query.all name).sources := List.mem_singleton_self name
  have hfits : ∀ database names, author.requireDatabase = .ok database →
      View.Leads twoLevels.disk database (.all "v") names →
      names.length ≤ twoLevels.settings.nestingLimit := by
    intro database names hdatabase hway
    obtain rfl : "kantor" = database := Except.ok.inj hdatabase
    have hlast (names : List String) (hrest : View.Leads twoLevels.disk "kantor" (.all "t") names) :
        names.length ≤ 0 := absurd hrest (View.Leads.not_table htable)
    exact View.Leads.length_le_succ hvText
      (fun _ hrest => View.Leads.length_le_succ huText hlast hrest) hway
  have hdeep : View.Leads twoLevels.disk "kantor" (.all "w") ["w", "v", "u"] :=
    .more (hmem _) hw hwText (.more (hmem _) hv hvText (.one (hmem _) hu))
  have hround : View.Leads twoLevels.disk "kantor" (.all "a") ["a", "b", "a"] :=
    .more (hmem _) ha haText (.more (hmem _) hb hbText (.one (hmem _) ha))
  exact ⟨⟨hfits, (Engine.select_nesting twoLevels author (.all "v")).1 hfits⟩,
    ⟨hdeep, (Engine.select_nesting twoLevels author (.all "w")).2 _ _ rfl hdeep (.inl (by decide))⟩,
    hround, (Engine.select_nesting twoLevels author (.all "a")).2 _ _ rfl hround (.inr (by decide))⟩

end Run

end FlatFileDb
