import FlatFileDb.Proofs.Words

/-!
# What is left behind some words

Trimming takes nothing but white space off the ends of a text, and the end of a text keeps its place
when both are trimmed. So what is left behind some words of a text ends where the trimmed text ends, with
all white space inside it untouched. It is the one end of the trimmed text that is trimmed itself and
holds just the words that follow.
-/

namespace FlatFileDb.Text

variable {s t u : List Char} {n : Nat}

/-! ### Ends of trimmed texts -/

theorem isPadded_trim (s : List Char) : IsPadded (trim s) s := by
  obtain ⟨before, hbefore, hbeforeBlank⟩ := trimStart_append s
  obtain ⟨after, hafter, hafterBlank⟩ := trimEnd_append (trimStart s)
  exact ⟨before, after, hbeforeBlank, hafterBlank, by rw [trim, hafter, hbefore]⟩

@[simp]
theorem trim_trim (s : List Char) : trim (trim s) = trim s :=
  (isPadded_trim s).trim.symm

theorem trimStart_suffix (h : t <:+ s) : trimStart t <:+ trimStart s := by
  obtain ⟨front, rfl⟩ := h
  rw [trimStart, trimStart, List.dropWhile_append]
  split
  · exact List.suffix_rfl
  · exact (List.dropWhile_suffix isBlank).trans (List.suffix_append _ t)

theorem trimEnd_suffix (h : t <:+ s) : trimEnd t <:+ trimEnd s := by
  obtain ⟨front, rfl⟩ := h
  rw [trimEnd, trimEnd, List.reverse_append, List.dropWhile_append]
  split
  · rename_i hnone
    rw [List.isEmpty_iff.1 hnone]
    exact List.nil_suffix
  · rw [List.reverse_append, List.reverse_reverse]
    exact List.suffix_append _ _

theorem trim_suffix (h : t <:+ s) : trim t <:+ trim s :=
  trimEnd_suffix (trimStart_suffix h)

/-- What an end of a text has before a shorter one with the same words is blank. -/
theorem eq_of_suffix (h : t <:+ u) (ht : trim t = t) (hu : trim u = u) (hwords : words t = words u) :
    t = u := by
  obtain ⟨front, rfl⟩ := h
  have hfilled : (t.filter fun c => !isBlank c) = (front ++ t).filter fun c => !isBlank c := by
    rw [← flatten_words, ← flatten_words, hwords]
  rw [List.filter_append, List.self_eq_append_left, List.filter_eq_nil_iff] at hfilled
  have hpadded : IsPadded t (front ++ t) :=
    ⟨front, [], fun c hc => by simpa using hfilled c hc, by simp, by rw [List.append_nil]⟩
  rw [← hu, hpadded.trim, ht]

/-- A trimmed end of a text is known by its words. -/
theorem eq_of_words (ht : t <:+ s) (hu : u <:+ s) (htrim : trim t = t) (hutrim : trim u = u)
    (hwords : words t = words u) : t = u := by
  rcases List.suffix_or_suffix_of_suffix ht hu with h | h
  · exact eq_of_suffix h htrim hutrim hwords
  · exact (eq_of_suffix h hutrim htrim hwords.symm).symm

/-! ### The words dropped -/

theorem exists_afterWords (n : Nat) (s : List Char) :
    ∃ rest, rest <:+ s ∧ afterWords n s = trimStart rest := by
  induction n generalizing s with
  | zero => exact ⟨s, List.suffix_rfl, rfl⟩
  | succ n ih =>
    obtain ⟨rest, hrest, hafter⟩ := ih ((trimStart s).dropWhile fun c => !isBlank c)
    exact ⟨rest, hrest.trans ((List.dropWhile_suffix _).trans (List.dropWhile_suffix isBlank)), hafter⟩

/-- What is left behind some words is an end of the text, trimmed. -/
theorem exists_dropWords (n : Nat) (s : List Char) :
    ∃ rest, rest <:+ s ∧ dropWords n s = trim rest := by
  obtain ⟨rest, hrest, hafter⟩ := exists_afterWords n s
  exact ⟨rest, hrest, by rw [dropWords, hafter, trim]⟩

theorem dropWords_suffix (n : Nat) (s : List Char) : dropWords n s <:+ trim s := by
  obtain ⟨rest, hrest, hdrop⟩ := exists_dropWords n s
  rw [hdrop]
  exact trim_suffix hrest

@[simp]
theorem trim_dropWords (n : Nat) (s : List Char) : trim (dropWords n s) = dropWords n s := by
  obtain ⟨rest, -, hdrop⟩ := exists_dropWords n s
  rw [hdrop, trim_trim]

/-- Three properties tell what is left behind some words of a text from all other texts. -/
theorem dropWords_eq_iff :
    dropWords n s = t ↔ t <:+ trim s ∧ trim t = t ∧ words t = (words s).drop n := by
  constructor
  · rintro rfl
    exact ⟨dropWords_suffix n s, trim_dropWords n s, words_dropWords n s⟩
  · rintro ⟨hsuffix, htrim, hwords⟩
    exact eq_of_words (dropWords_suffix n s) hsuffix (trim_dropWords n s) htrim
      ((words_dropWords n s).trans hwords.symm)

/-- Nothing is left behind the words of a text if there are no more of them, and only then. -/
theorem dropWords_eq_nil_iff : dropWords n s = [] ↔ (words s).length ≤ n := by
  rw [dropWords_eq_iff, ← List.drop_eq_nil_iff]
  exact ⟨fun h => h.2.2.symm, fun h => ⟨List.nil_suffix, rfl, h.symm⟩⟩

/-- Behind its first words a text goes on as written up to where it ends when trimmed: what is left has
no white space around it and holds the words that follow, and it is empty exactly if none follow. -/
theorem dropWords_agrees (n : Nat) (s : List Char) :
    IsPadded (trim s) s ∧ dropWords n s <:+ trim s ∧ trim (dropWords n s) = dropWords n s ∧
      words (dropWords n s) = (words s).drop n ∧ (dropWords n s = [] ↔ (words s).length ≤ n) :=
  ⟨isPadded_trim s, dropWords_suffix n s, trim_dropWords n s, words_dropWords n s,
    dropWords_eq_nil_iff⟩

example : dropWords 2 "SIMPEN pegawai   1|Asep Sunandar|a=b ".toList = "1|Asep Sunandar|a=b".toList := by
  decide

end FlatFileDb.Text
