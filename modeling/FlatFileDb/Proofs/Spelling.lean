import FlatFileDb.Proofs.Words

/-!
# Words that spell keywords

A word is a keyword if its capital form is one of the spellings, and these are made of capital letters
and underscores. So whether a word is a keyword depends on its capital form alone: a word that spells
one keyword spells another one only if they share a spelling, and no character that is its own capital
and neither a capital letter nor an underscore stands in a keyword.
-/

namespace FlatFileDb

/-- Blanks have no capitals. -/
theorem Text.upperChar_of_isBlank {c : Char} (h : isBlank c = true) : upperChar c = [c] := by
  have hall : ∀ n ∈ [9, 10, 11, 12, 13, 0x20, 0x85, 0xa0, 0x1680, 0x2000, 0x2001, 0x2002, 0x2003,
      0x2004, 0x2005, 0x2006, 0x2007, 0x2008, 0x2009, 0x200a, 0x2028, 0x2029, 0x202f, 0x205f, 0x3000],
      upperChar (Char.ofNat n) = [Char.ofNat n] := by
    decide +kernel
  rw [← Char.ofNat_toNat c]
  refine hall c.toNat ?_
  simp only [isBlank, Bool.or_eq_true, Bool.and_eq_true, decide_eq_true_eq, beq_iff_eq] at h
  simp only [List.mem_cons, List.not_mem_nil, or_false]
  omega

namespace Statement.Keyword

variable {keyword : Keyword} {word : String} {c : Char}

/-- Whether a word is a spelling of the keyword, in any case. -/
def Spells (keyword : Keyword) (word : String) : Prop :=
  Text.toUpper word ∈ keyword.spellings

instance (keyword : Keyword) (word : String) : Decidable (keyword.Spells word) :=
  inferInstanceAs (Decidable (_ ∈ _))

/-- The keywords. -/
def all : List Keyword :=
  [create, insert, select, update, delete, index, search, begin, commit, rollback, become,
    table, view, trigger, fullText,
    source, databases, assignment, filter, both, either, contains, definedAs, event, onTable,
    action, onColumn, sought,
    inner, left, right, full, join,
    group, byWord, having, havingFiller, order, ascending, descending, limit, offset,
    master, replica, following]

theorem mem_all (keyword : Keyword) : keyword ∈ all := by
  cases keyword <;> decide

theorem accepts_iff : keyword.accepts word = true ↔ keyword.Spells word := by
  rw [accepts, List.contains_iff_mem, Spells]

theorem Spells.accepts (h : keyword.Spells word) : keyword.accepts word = true :=
  accepts_iff.2 h

theorem accepts_eq_false (h : ¬keyword.Spells word) : keyword.accepts word = false := by
  rw [← Bool.not_eq_true, accepts_iff]
  exact h

/-- The spelling used in messages is one. -/
theorem spells_canonical (keyword : Keyword) : keyword.Spells keyword.canonical := by
  cases keyword <;> decide

/-- Two keywords are told apart unless they share a spelling. -/
theorem Spells.accepts_other (h : keyword.Spells word) (other : Keyword)
    (hother : ∀ spelling ∈ keyword.spellings, spelling ∉ other.spellings) :
    other.accepts word = false :=
  accepts_eq_false (hother _ h)

theorem Spells.if_other {α : Type} (h : keyword.Spells word) (other : Keyword)
    (hother : ∀ spelling ∈ keyword.spellings, spelling ∉ other.spellings) (a b : α) :
    (if other.accepts word then a else b) = b :=
  if_neg (by simp [h.accepts_other other hother])

/-- Whether a character may stand in the spelling of a keyword. -/
def isCapital (c : Char) : Bool :=
  c.isUpper || c == '_'

theorem isCapital_of_mem_spellings (h : word ∈ keyword.spellings) (hc : c ∈ word.toList) :
    isCapital c = true := by
  have hall : ∀ spelling ∈ keyword.spellings, spelling.toList.all isCapital = true := by
    cases keyword <;> decide
  exact List.all_eq_true.1 (hall word h) c hc

/-- What is its own capital and stands in no spelling stands in no keyword. -/
theorem Spells.not_mem (h : keyword.Spells word) (hself : Text.upperChar c = [c])
    (hother : isCapital c = false) : c ∉ word.toList := by
  intro hc
  have hupper : c ∈ (Text.toUpper word).toList := by
    rw [Text.toUpper, String.toList_ofList, Text.upper, List.mem_flatMap]
    exact ⟨c, hc, by rw [hself]; exact List.mem_singleton_self c⟩
  rw [isCapital_of_mem_spellings h hupper] at hother
  exact absurd hother (by simp)

theorem Spells.isComparing (h : keyword.Spells word) (hc : c ∈ word.toList) :
    isComparing c = false := by
  have hother {d : Char} (hself : Text.upperChar d = [d]) (hd : isCapital d = false) :
      (c == d) = false := by
    rw [beq_eq_false_iff_ne]
    rintro rfl
    exact h.not_mem hself hd hc
  rw [Statement.isComparing, hother (by decide) (by decide), hother (by decide) (by decide),
    hother (by decide) (by decide)]
  rfl

theorem Spells.isBlank (h : keyword.Spells word) (hc : c ∈ word.toList) :
    Text.isBlank c = false := by
  rw [← Bool.not_eq_true]
  intro hblank
  refine h.not_mem (Text.upperChar_of_isBlank hblank) ?_ hc
  rw [isCapital, Bool.or_eq_false_iff, beq_eq_false_iff_ne]
  refine ⟨?_, ?_⟩
  · simp only [Text.isBlank, Bool.or_eq_true, Bool.and_eq_true, decide_eq_true_eq, beq_iff_eq]
      at hblank
    rw [← Bool.not_eq_true]
    intro hupper
    have hletter : 65 ≤ c.val ∧ c.val ≤ 90 := of_decide_eq_true hupper
    have hlow : 65 ≤ c.toNat := UInt32.le_iff_toNat_le.1 hletter.1
    have hhigh : c.toNat ≤ 90 := UInt32.le_iff_toNat_le.1 hletter.2
    omega
  · rintro rfl
    exact absurd hblank (by decide)

theorem Spells.ne_nil (h : keyword.Spells word) : word.toList ≠ [] := by
  intro hnone
  have hempty : "" ∉ keyword.spellings := by
    cases keyword <;> decide
  rw [Spells, Text.toUpper, hnone] at h
  exact hempty h

/-- A keyword is one token. -/
theorem Spells.tokens (h : keyword.Spells word) : tokens word.toList = [word] :=
  (tokens_of_plain (fun _ hc => h.isBlank hc) h.ne_nil fun _ hc => h.isComparing hc).trans
    (by rw [String.ofList_toList])

theorem spells_of_operation? {operation : Operation} (h : operation? word = some operation) :
    ∃ keyword : Keyword, keyword.Spells word := by
  unfold operation? at h
  split at h
  · exact ⟨.insert, accepts_iff.1 ‹_›⟩
  · split at h
    · exact ⟨.update, accepts_iff.1 ‹_›⟩
    · split at h
      · exact ⟨.delete, accepts_iff.1 ‹_›⟩
      · exact absurd h (by simp)

end Statement.Keyword

end FlatFileDb
