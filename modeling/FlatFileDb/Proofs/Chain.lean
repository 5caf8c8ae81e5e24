import FlatFileDb.Condition
import FlatFileDb.Proofs.Action

/-!
# Chains of conditions

A chain asks for its conditions once each, from the first on, until one cannot be tested, and fails with
what that test failed with. If all of them can be tested, the chain holds where some condition holds that
starts it anew, being the first or standing behind an `or`, and with it all later conditions that do not
stand behind an `or`. What a chain asks for is seen by a test that takes down what it is asked.
-/

namespace FlatFileDb.Condition

variable {σ : Type} {conditions rest : List Condition} {condition : Condition}
  {answers others : List Bool} {answer outcome : Bool} {position : Nat}

/-! ### The outcome of given answers -/

/-- Whether a condition of a chain stands behind an `or`. -/
def FollowsOr (conditions : List Condition) (position : Nat) : Prop :=
  0 < position ∧ ∃ before, conditions[position - 1]? = some before ∧ before.connector = some .or

/-- A condition that decides for a whole chain, whatever was before it: it holds, and so do all later
ones that are not behind an `or`. -/
structure Carries (conditions : List Condition) (answers : List Bool) (position : Nat) : Prop where
  starts : position = 0 ∨ FollowsOr conditions position
  holds : answers[position]? = some true
  later : ∀ other, position < other → other < conditions.length → ¬FollowsOr conditions other →
    answers[other]? = some true

/-- The outcome of a chain whose conditions have the given answers, from the outcome so far on. -/
def foldFrom (outcome : Bool) (connector : Option Connector) : List Condition → List Bool → Bool
  | condition :: rest, answer :: others =>
    foldFrom (combine connector outcome answer) condition.connector rest others
  | _, _ => outcome

/-- The outcome of a chain whose conditions have the given answers. -/
def foldAnswers : List Condition → List Bool → Bool
  | condition :: rest, answer :: others => foldFrom answer condition.connector rest others
  | _, _ => true

theorem followsOr_append (h : position ≤ conditions.length) :
    FollowsOr (conditions ++ rest) position ↔ FollowsOr conditions position := by
  refine and_congr_right fun hpositive => ?_
  rw [List.getElem?_append_left (by omega)]

theorem followsOr_length (last : Condition) :
    FollowsOr (conditions ++ [last]) (conditions ++ [last]).length ↔ last.connector = some .or := by
  simp [FollowsOr]

/-- A condition that carries a chain carries it on where the next one holds or stands behind an `or`. -/
theorem carries_append (hlength : answers.length = conditions.length)
    (hposition : position < conditions.length) :
    Carries (conditions ++ [condition]) (answers ++ [answer]) position ↔
      Carries conditions answers position ∧
        (¬FollowsOr conditions conditions.length → answer = true) := by
  have hlast : (answers ++ [answer])[conditions.length]? = some answer := by simp [← hlength]
  constructor
  · intro h
    refine ⟨⟨h.starts.imp_right (followsOr_append (Nat.le_of_lt hposition)).1, ?_, ?_⟩, fun hno => ?_⟩
    · rw [← List.getElem?_append_left (by omega)]
      exact h.holds
    · intro other hafter hbound hno
      rw [← @List.getElem?_append_left _ answers [answer] other (by omega)]
      exact h.later other hafter (by simp; omega) fun hor => hno ((followsOr_append (Nat.le_of_lt hbound)).1 hor)
    · have hholds := h.later conditions.length hposition (by simp) fun hor =>
        hno ((followsOr_append (Nat.le_refl _)).1 hor)
      exact Option.some.inj (hlast.symm.trans hholds)
  · rintro ⟨h, hnext⟩
    refine ⟨h.starts.imp_right (followsOr_append (Nat.le_of_lt hposition)).2, ?_, ?_⟩
    · rw [List.getElem?_append_left (by omega)]
      exact h.holds
    · intro other hafter hbound hno
      rw [List.length_append, List.length_singleton] at hbound
      rcases (by omega : other < conditions.length ∨ other = conditions.length) with hinside | rfl
      · rw [List.getElem?_append_left (by omega)]
        exact h.later other hafter hinside fun hor => hno ((followsOr_append (Nat.le_of_lt hinside)).2 hor)
      · rw [hlast, hnext fun hor => hno ((followsOr_append (Nat.le_refl _)).2 hor)]

/-- The last condition carries a chain that it starts anew. -/
theorem carries_last (hlength : answers.length = conditions.length) (hsome : conditions ≠ []) :
    Carries (conditions ++ [condition]) (answers ++ [answer]) conditions.length ↔
      FollowsOr conditions conditions.length ∧ answer = true := by
  have hlast : (answers ++ [answer])[conditions.length]? = some answer := by simp [← hlength]
  have hpositive := List.length_pos_iff.2 hsome
  constructor
  · intro h
    refine ⟨(followsOr_append (Nat.le_refl _)).1 (h.starts.resolve_left (by omega)), ?_⟩
    exact Option.some.inj (hlast.symm.trans h.holds)
  · rintro ⟨hor, rfl⟩
    refine ⟨.inr ((followsOr_append (Nat.le_refl _)).2 hor), hlast, fun other hafter hbound => ?_⟩
    rw [List.length_append, List.length_singleton] at hbound
    omega

/-- One more answer is joined to the outcome by the connector before it. -/
theorem exists_carries_append {last : Condition} (hlength : answers.length = (conditions ++ [last]).length) :
    (∃ position, Carries (conditions ++ [last] ++ [condition]) (answers ++ [answer]) position) ↔
      if last.connector = some .or then
        (∃ position, Carries (conditions ++ [last]) answers position) ∨ answer = true
      else (∃ position, Carries (conditions ++ [last]) answers position) ∧ answer = true := by
  have hsplit : (∃ position,
      Carries (conditions ++ [last] ++ [condition]) (answers ++ [answer]) position) ↔
        (∃ position, Carries (conditions ++ [last]) answers position ∧
          (¬last.connector = some .or → answer = true)) ∨
            last.connector = some .or ∧ answer = true := by
    constructor
    · rintro ⟨position, h⟩
      obtain ⟨hbound, -⟩ := List.getElem?_eq_some_iff.1 h.holds
      rw [List.length_append, List.length_singleton, hlength] at hbound
      rcases (by omega : position < (conditions ++ [last]).length ∨
        position = (conditions ++ [last]).length) with hinside | rfl
      · rw [carries_append hlength hinside, followsOr_length] at h
        exact .inl ⟨position, h⟩
      · rw [carries_last hlength (by simp), followsOr_length] at h
        exact .inr h
    · rintro (⟨position, h⟩ | h)
      · obtain ⟨hbound, -⟩ := List.getElem?_eq_some_iff.1 h.1.holds
        refine ⟨position, (carries_append hlength (hlength ▸ hbound)).2 ?_⟩
        rwa [followsOr_length]
      · refine ⟨_, (carries_last hlength (by simp)).2 ?_⟩
        rwa [followsOr_length]
  rw [hsplit]
  by_cases hor : last.connector = some .or <;> simp [hor]

theorem combine_eq (connector : Option Connector) (before next : Bool) :
    combine connector before next = true ↔
      if connector = some .or then before = true ∨ next = true else before = true ∧ next = true := by
  rcases connector with _ | _ | _ <;> simp [combine]

/-- The outcome so far is whether some condition carries the chain so far. -/
theorem foldFrom_iff {last : Condition} (hlength : answers.length = (conditions ++ [last]).length)
    (hothers : others.length = rest.length)
    (h : outcome = true ↔ ∃ position, Carries (conditions ++ [last]) answers position) :
    foldFrom outcome last.connector rest others = true ↔
      ∃ position, Carries (conditions ++ [last] ++ rest) (answers ++ others) position := by
  induction rest generalizing conditions last answers others outcome with
  | nil =>
    obtain rfl := List.eq_nil_of_length_eq_zero hothers
    rw [foldFrom, h, List.append_nil, List.append_nil]
    simp
  | cons next rest ih =>
    obtain ⟨answer, others, rfl⟩ := List.exists_cons_of_length_eq_add_one hothers
    have hstep : combine last.connector outcome answer = true ↔
        ∃ position, Carries (conditions ++ [last] ++ [next]) (answers ++ [answer]) position := by
      rw [exists_carries_append hlength, combine_eq, h]
    have hrest := ih (by simpa using hlength) (by simpa using hothers) hstep
    rw [foldFrom, hrest]
    simp

/-- A chain whose conditions have the given answers holds where one of its conditions carries it. -/
theorem foldAnswers_iff (hlength : answers.length = conditions.length) :
    foldAnswers conditions answers = true ↔
      conditions = [] ∨ ∃ position, Carries conditions answers position := by
  cases conditions with
  | nil => simp [foldAnswers]
  | cons first rest =>
    obtain ⟨answer, others, rfl⟩ := List.exists_cons_of_length_eq_add_one hlength
    have hfirst : answer = true ↔ ∃ position, Carries ([] ++ [first]) [answer] position := by
      constructor
      · rintro rfl
        exact ⟨0, .inl rfl, rfl, fun other hafter hbound => by simp at hbound; omega⟩
      · rintro ⟨position, h⟩
        obtain ⟨hbound, hholds⟩ := List.getElem?_eq_some_iff.1 h.holds
        simpa using hholds
    rw [foldAnswers, foldFrom_iff (by simp) (by simpa using hlength) hfirst]
    simp

/-! ### Asking for the conditions -/

/-- A chain asks for all answers and folds them. -/
theorem evaluate_eq {m : Type → Type} [Monad m] [LawfulMonad m] (test : Condition → m Bool)
    (conditions : List Condition) :
    evaluate test conditions = foldAnswers conditions <$> conditions.mapM test := by
  have hfrom (outcome : Bool) (connector : Option Connector) (rest : List Condition) :
      evaluateFrom test outcome connector rest
        = foldFrom outcome connector rest <$> rest.mapM test := by
    induction rest generalizing outcome connector with
    | nil => simp [evaluateFrom, foldFrom]
    | cons condition rest ih => simp [evaluateFrom, foldFrom, ih]
  cases conditions with
  | nil => simp [evaluate, foldAnswers]
  | cons condition rest => simp [evaluate, foldAnswers, hfrom]

/-- Conditions are tested one after the other, each in the state that the test before it left, and all
are answered. -/
inductive Answers (test : Condition → Action σ Bool) :
    σ → List Condition → List Bool → σ → Prop where
  | nil (s : σ) : Answers test s [] [] s
  | cons {s between after : σ} {condition : Condition} {rest : List Condition} {answer : Bool}
      {others : List Bool} (hfirst : test condition s = (.ok answer, between))
      (hrest : Answers test between rest others after) :
      Answers test s (condition :: rest) (answer :: others) after

theorem Answers.length {test : Condition → Action σ Bool} {s after : σ}
    (h : Answers test s conditions answers after) : answers.length = conditions.length := by
  induction h with
  | nil => rfl
  | cons _ _ ih => rw [List.length_cons, List.length_cons, ih]

/-- A test that takes down what it is asked. -/
def recorded (test : Condition → Action σ Bool) (condition : Condition) :
    Action (List Condition × σ) Bool :=
  fun (asked, s) => ((test condition s).1, asked ++ [condition], (test condition s).2)

/-- The conditions that a chain is tested for, one for every test that is made. -/
def tested (test : Condition → Action σ Bool) (conditions : List Condition) (s : σ) :
    List Condition :=
  (evaluate (recorded test) conditions ([], s)).2.1

/-- Tests are made one after the other until one fails. -/
theorem mapM_cases (test : Condition → Action σ Bool) (conditions asked : List Condition) (s : σ) :
    (∃ front condition behind answers between failure after,
      conditions = front ++ condition :: behind ∧ Answers test s front answers between ∧
        test condition between = (.error failure, after) ∧
          conditions.mapM test s = (.error failure, after) ∧
            conditions.mapM (recorded test) (asked, s)
              = (.error failure, asked ++ (front ++ [condition]), after)) ∨
      ∃ answers after, Answers test s conditions answers after ∧
        conditions.mapM test s = (.ok answers, after) ∧
          conditions.mapM (recorded test) (asked, s) = (.ok answers, asked ++ conditions, after) := by
  induction conditions generalizing asked s with
  | nil => exact .inr ⟨[], s, .nil s, rfl, by rw [List.append_nil]; rfl⟩
  | cons condition rest ih =>
    rw [List.mapM_cons, List.mapM_cons]
    rcases hfirst : test condition s with ⟨failure | answer, between⟩
    · have hrecorded : recorded test condition (asked, s)
          = (.error failure, asked ++ [condition], between) := by rw [recorded, hfirst]
      exact .inl ⟨[], condition, rest, [], s, failure, between, rfl, .nil s, hfirst,
        Action.bind_of_error hfirst, Action.bind_of_error hrecorded⟩
    · have hrecorded : recorded test condition (asked, s)
          = (.ok answer, asked ++ [condition], between) := by rw [recorded, hfirst]
      rw [Action.bind_of_ok hfirst, Action.bind_of_ok hrecorded]
      rcases ih (asked ++ [condition]) between with
        ⟨front, other, behind, answers, last, failure, after, rfl, hfront, hother, hmap, hmap'⟩ |
        ⟨answers, after, hrest, hmap, hmap'⟩
      · rw [Action.bind_of_error hmap, Action.bind_of_error hmap']
        exact .inl ⟨condition :: front, other, behind, answer :: answers, last, failure, after, rfl,
          .cons hfirst hfront, hother, rfl, by simp⟩
      · rw [Action.bind_of_ok hmap, Action.bind_of_ok hmap']
        exact .inr ⟨answer :: answers, after, .cons hfirst hrest, rfl, by simp⟩

/-- A chain makes its tests in order, each once, up to the first that fails, and fails as that one did.
If none fails, all are made, and the chain holds if it is empty or one of its conditions carries it. -/
theorem evaluate_cases (test : Condition → Action σ Bool) (conditions : List Condition) (s : σ) :
    (∃ front condition behind answers between failure after,
      conditions = front ++ condition :: behind ∧ Answers test s front answers between ∧
        test condition between = (.error failure, after) ∧
          evaluate test conditions s = (.error failure, after) ∧
            tested test conditions s = front ++ [condition]) ∨
      ∃ answers outcome after, Answers test s conditions answers after ∧
        evaluate test conditions s = (.ok outcome, after) ∧ tested test conditions s = conditions ∧
          (outcome = true ↔ conditions = [] ∨ ∃ position, Carries conditions answers position) := by
  rcases mapM_cases test conditions [] s with
    ⟨front, condition, behind, answers, between, failure, after, hsplit, hfront, hfails, hmap, hmap'⟩ |
    ⟨answers, after, hall, hmap, hmap'⟩
  · refine .inl ⟨front, condition, behind, answers, between, failure, after, hsplit, hfront, hfails,
      ?_, ?_⟩
    · rw [evaluate_eq, Action.map_apply, hmap]
      rfl
    · rw [tested, evaluate_eq, Action.map_apply, hmap']
      rfl
  · refine .inr ⟨answers, foldAnswers conditions answers, after, hall, ?_, ?_,
      foldAnswers_iff hall.length⟩
    · rw [evaluate_eq, Action.map_apply, hmap]
      rfl
    · rw [tested, evaluate_eq, Action.map_apply, hmap']
      rfl

/-- `a OR b AND c` with `a` alone true. -/
example :
    evaluate (fun condition => (pure (condition.field == "a") : Action Unit Bool))
      [⟨"a", .equal, "", some .or⟩, ⟨"b", .equal, "", some .and⟩, ⟨"c", .equal, "", none⟩] ()
        = (.ok false, ()) :=
  rfl

end FlatFileDb.Condition
