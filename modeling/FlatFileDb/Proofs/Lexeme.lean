import FlatFileDb.Proofs.Words
import Mathlib.Data.Finset.Max

/-!
# Tokens one by one

A text is cut at its blanks, in front of every comparison and behind it, where the longest comparison
counts. So a token is a word without comparisons, or a comparison by itself, and both are tokens of their
own: reading a token again gives back the token, and what is put together from the tokens of a text has
the same tokens. It is the text again exactly if they are its words, with one blank between each two.

What a statement is read as depends on its tokens, and those of its parts are read one by one, also
where the last part ends with blanks or a semicolon.
-/

namespace FlatFileDb

namespace Statement

variable {s t word rest : List Char} {found : List String}

/-- The comparisons that are tokens. -/
def comparisons : List (List Char) :=
  ["=", ">", "<", ">=", "<=", "!="].map String.toList

/-- Whether a word is free of comparisons, or one of them. -/
def IsLexeme (word : List Char) : Prop :=
  (∀ c ∈ word, isComparing c = false) ∨ word ∈ comparisons

instance (word : List Char) : Decidable (IsLexeme word) :=
  inferInstanceAs (Decidable (_ ∨ _))

/-- Whether a text starts with a comparison. -/
def StartsComparison (s : List Char) : Prop :=
  ∃ comparison ∈ comparisons, comparison <+: s

/-- Whether a word is the first token of the text that it makes up with what follows it: the longest
comparison there, or else all that stands before the next blank or comparison. -/
inductive IsToken : List Char → List Char → Prop
  | comparison {word rest : List Char} (hword : word ∈ comparisons)
      (hlongest : ∀ other ∈ comparisons, other <+: word ++ rest → other <+: word) : IsToken word rest
  | plain {word rest : List Char} (hne : word ≠ []) (hfilled : ∀ c ∈ word, Text.isBlank c = false)
      (hplain : ∀ part, part <:+ word → part ≠ [] → ¬StartsComparison (part ++ rest))
      (hend : Text.StartsBlank rest ∨ StartsComparison rest) : IsToken word rest

/-- How a text is cut into tokens, with or without white space between them. -/
inductive IsCut : List Char → List String → Prop
  | blank {gap : List Char} (hgap : ∀ c ∈ gap, Text.isBlank c = true) : IsCut gap []
  | token {gap rest : List Char} {token : String} {more : List String}
      (hgap : ∀ c ∈ gap, Text.isBlank c = true) (htoken : IsToken token.toList rest)
      (hrest : IsCut rest more) : IsCut (gap ++ (token.toList ++ rest)) (token :: more)

/-! ### How a text is cut -/

theorem startsBlank_space (rest : List Char) : Text.StartsBlank (' ' :: rest) := by
  change Text.isBlank ' ' = true
  decide

theorem isComparing_iff {c : Char} : isComparing c = true ↔ c = '=' ∨ c = '>' ∨ c = '<' := by
  rw [isComparing, Bool.or_eq_true, Bool.or_eq_true, beq_iff_eq, beq_iff_eq, beq_iff_eq, or_assoc]

theorem spaceOut_of_comparing {c : Char} (h : isComparing c = true) : spaceOut c = [' ', c, ' '] :=
  if_pos h

/-- A text starts with a comparison if its first character compares, or if it is an exclamation mark
with an equality sign behind it. -/
theorem startsComparison_cons {c : Char} :
    StartsComparison (c :: s) ↔ isComparing c = true ∨ c = '!' ∧ s.head? = some '=' := by
  rw [isComparing_iff]
  cases s with
  | nil => simp [StartsComparison, comparisons, eq_comm]
  | cons d rest =>
    simp [StartsComparison, comparisons, eq_comm]
    grind

/-- Nothing is put around a character where no comparison starts. -/
theorem pad_cons_of_not {c : Char} (h : ¬StartsComparison (c :: s)) : pad (c :: s) = c :: pad s := by
  rw [startsComparison_cons, not_or, Bool.not_eq_true] at h
  obtain ⟨hplain, hmark⟩ := h
  cases s with
  | nil => exact spaceOut_of_not hplain
  | cons d rest =>
    by_cases hd : d = '='
    · subst hd
      exact pad_cons hplain (fun hc => hmark ⟨hc, rfl⟩) ('=' :: rest)
    · rw [pad, beq_eq_false_iff_ne.2 hd, Bool.false_and, if_neg (by simp), spaceOut_of_not hplain]
      rfl

theorem pad_append_of_plain
    (h : ∀ part, part <:+ word → part ≠ [] → ¬StartsComparison (part ++ rest)) :
    pad (word ++ rest) = word ++ pad rest := by
  induction word with
  | nil => rfl
  | cons c word ih =>
    have hfirst : ¬StartsComparison (c :: (word ++ rest)) := h _ List.suffix_rfl (List.cons_ne_nil c word)
    rw [List.cons_append, pad_cons_of_not hfirst,
      ih fun part hpart => h part (hpart.trans (List.suffix_cons c word)), List.cons_append]

theorem pad_single {c : Char} (hc : isComparing c = true)
    (hsingle : [c, '='] ∈ comparisons → s.head? ≠ some '=') : pad (c :: s) = ' ' :: c :: ' ' :: pad s := by
  cases s with
  | nil => exact spaceOut_of_comparing hc
  | cons d rest =>
    have hother : (d == '=' && (c == '>' || c == '<' || c == '!')) = false := by
      rcases isComparing_iff.1 hc with rfl | rfl | rfl
      · exact Bool.and_false _
      · rw [beq_eq_false_iff_ne.2 fun hd => hsingle (by decide) (congrArg some hd), Bool.false_and]
      · rw [beq_eq_false_iff_ne.2 fun hd => hsingle (by decide) (congrArg some hd), Bool.false_and]
    rw [pad, hother, if_neg (by simp), spaceOut_of_comparing hc]
    rfl

/-- Blanks are put around the longest comparison. -/
theorem pad_append_of_comparison (hword : word ∈ comparisons)
    (hlongest : ∀ other ∈ comparisons, other <+: word ++ rest → other <+: word) :
    pad (word ++ rest) = ' ' :: (word ++ ' ' :: pad rest) := by
  -- Behind a character that compares by itself, an equality sign would make a longer comparison.
  have hsingle {c : Char} (hlongest : ∀ other ∈ comparisons, other <+: c :: rest → other <+: [c])
      (hpair : [c, '='] ∈ comparisons) : rest.head? ≠ some '=' := by
    intro hhead
    obtain ⟨behind, rfl⟩ := List.head?_eq_some_iff.1 hhead
    have hshort := (hlongest _ hpair ⟨behind, rfl⟩).length_le
    exact absurd hshort (by simp)
  have hall : comparisons = [['='], ['>'], ['<'], ['>', '='], ['<', '='], ['!', '=']] := rfl
  simp only [hall, List.mem_cons, List.not_mem_nil, or_false] at hword
  rcases hword with rfl | rfl | rfl | rfl | rfl | rfl
  · exact pad_single (by decide) (hsingle hlongest)
  · exact pad_single (by decide) (hsingle hlongest)
  · exact pad_single (by decide) (hsingle hlongest)
  all_goals rfl

theorem exists_comparison (h : StartsComparison s) :
    ∃ word rest, s = word ++ rest ∧ word ∈ comparisons ∧
      ∀ other ∈ comparisons, other <+: s → other <+: word := by
  obtain ⟨first, hfirst, hstart⟩ := h
  obtain ⟨word, hword, hmax⟩ := (comparisons.filter fun other => other <+: s).toFinset.exists_max_image
    List.length ⟨first, by simp [hfirst, hstart]⟩
  simp only [List.mem_toFinset, List.mem_filter, decide_eq_true_eq, and_imp] at hword hmax
  obtain ⟨rest, rfl⟩ := hword.2
  exact ⟨word, rest, rfl, hword.1, fun other hother hprefix =>
    List.prefix_of_prefix_length_le hprefix hword.2 (hmax other hother hprefix)⟩

theorem startsBlank_pad (h : Text.StartsBlank s ∨ StartsComparison s) : Text.StartsBlank (pad s) := by
  rcases h with hblank | hcompares
  · cases s with
    | nil => trivial
    | cons b rest =>
      rw [← List.nil_append (b :: rest), pad_append_cons hblank]
      exact hblank
  · obtain ⟨word, rest, rfl, hword, hlongest⟩ := exists_comparison hcompares
    rw [pad_append_of_comparison hword hlongest]
    exact startsBlank_space _

theorem words_pad_append (h : IsToken word rest) :
    Text.words (pad (word ++ rest)) = word :: Text.words (pad rest) := by
  cases h with
  | comparison hword hlongest =>
    have hfilled : ∀ other ∈ comparisons, other ≠ [] ∧ ∀ c ∈ other, Text.isBlank c = false := by decide
    have hspace (t : List Char) : Text.words (' ' :: t) = Text.words t :=
      Text.words_append_cons (by decide) [] t
    rw [pad_append_of_comparison hword hlongest, hspace,
      Text.words_append (hfilled word hword).2 (hfilled word hword).1 (startsBlank_space _), hspace]
  | plain hne hfilled hplain hend =>
    rw [pad_append_of_plain hplain, Text.words_append hfilled hne (startsBlank_pad hend)]

/-- Where neither a blank nor a comparison starts a text, a token without comparisons does. -/
theorem exists_plain (s : List Char) : ∃ word rest, s = word ++ rest ∧
    (∀ c ∈ word, Text.isBlank c = false) ∧
      (∀ part, part <:+ word → part ≠ [] → ¬StartsComparison (part ++ rest)) ∧
        (Text.StartsBlank rest ∨ StartsComparison rest) := by
  induction s with
  | nil => exact ⟨[], [], rfl, by simp, by simp, .inl trivial⟩
  | cons c s ih =>
    by_cases hend : Text.StartsBlank (c :: s) ∨ StartsComparison (c :: s)
    · exact ⟨[], c :: s, rfl, by simp, by simp, hend⟩
    · rw [not_or] at hend
      obtain ⟨word, rest, rfl, hfilled, hplain, hend'⟩ := ih
      refine ⟨c :: word, rest, rfl, ?_, ?_, hend'⟩
      · rw [List.forall_mem_cons]
        exact ⟨by simpa [Text.StartsBlank] using hend.1, hfilled⟩
      · intro part hpart hne
        rcases List.suffix_cons_iff.1 hpart with rfl | hpart
        · exact hend.2
        · exact hplain part hpart hne

theorem exists_token (h : ¬Text.StartsBlank s) : ∃ word rest, s = word ++ rest ∧ IsToken word rest := by
  by_cases hcompares : StartsComparison s
  · obtain ⟨word, rest, rfl, hword, hlongest⟩ := exists_comparison hcompares
    exact ⟨word, rest, rfl, .comparison hword hlongest⟩
  · obtain ⟨word, rest, rfl, hfilled, hplain, hend⟩ := exists_plain s
    refine ⟨word, rest, rfl, .plain ?_ hfilled hplain hend⟩
    rintro rfl
    exact hend.elim h hcompares

theorem IsToken.ne_nil (h : IsToken word rest) : word ≠ [] := by
  cases h with
  | comparison hword hlongest =>
    rintro rfl
    exact absurd hword (by decide)
  | plain hne hfilled hplain hend => exact hne

theorem IsToken.isLexeme (h : IsToken word rest) : IsLexeme word := by
  cases h with
  | comparison hword hlongest => exact .inr hword
  | plain hne hfilled hplain hend =>
    refine .inl fun c hc => ?_
    obtain ⟨before, behind, rfl⟩ := List.append_of_mem hc
    have hpart := hplain (c :: behind) (List.suffix_append before _) (List.cons_ne_nil c behind)
    rw [List.cons_append, startsComparison_cons, not_or, Bool.not_eq_true] at hpart
    exact hpart.1

/-- Every text can be cut into tokens. -/
theorem exists_isCut (s : List Char) : ∃ found, IsCut s found := by
  rcases Text.blank_or_word s with hblank | ⟨gap, word, behind, rfl, hgap, hfilled, hne, -⟩
  · exact ⟨[], .blank hblank⟩
  · have hstart : ¬Text.StartsBlank (word ++ behind) := by
      obtain ⟨c, others, rfl⟩ := List.exists_cons_of_ne_nil hne
      simpa [Text.StartsBlank] using hfilled c List.mem_cons_self
    -- The word may hold several tokens, so what follows the first of them is cut, and not `behind`.
    obtain ⟨first, rest, hsplit, hfirst⟩ := exists_token hstart
    have hshorter : rest.length < (gap ++ (word ++ behind)).length := by
      have hpositive := List.length_pos_iff.2 hfirst.ne_nil
      rw [hsplit, List.length_append, List.length_append]
      omega
    obtain ⟨more, hrest⟩ := exists_isCut rest
    rw [← String.toList_ofList (l := first)] at hfirst hsplit
    rw [hsplit]
    exact ⟨String.ofList first :: more, .token hgap hfirst hrest⟩
termination_by s.length

theorem IsCut.tokens_eq (h : IsCut s found) : tokens s = found := by
  induction h with
  | blank hgap => exact tokens_of_blank hgap
  | @token gap rest token more hgap htoken hrest ih =>
    rw [tokens_blank_append hgap, tokens, words_pad_append htoken, List.map_cons, String.ofList_toList,
      ← tokens, ih]

/-- A text can be cut into its tokens, and in no other way. -/
theorem tokens_eq_iff : tokens s = found ↔ IsCut s found := by
  refine ⟨?_, IsCut.tokens_eq⟩
  rintro rfl
  obtain ⟨found, hfound⟩ := exists_isCut s
  rwa [hfound.tokens_eq]

example : tokens "a!==b>= =c<>d".toList = ["a", "!=", "=", "b", ">=", "=", "c", "<", ">", "d"] := by
  decide

theorem isCut_tokens (s : List Char) : IsCut s (tokens s) :=
  tokens_eq_iff.1 rfl

theorem IsCut.isLexeme (h : IsCut s found) :
    ∀ token ∈ found, IsLexeme token.toList := by
  induction h with
  | blank hgap => exact List.forall_mem_nil _
  | token hgap htoken hrest ih => exact List.forall_mem_cons.2 ⟨htoken.isLexeme, ih⟩

/-! ### Every token is one -/

/-- A word is a token by itself if it is a lexeme, and only then. -/
theorem tokens_eq_singleton_iff {word : String} : tokens word.toList = [word] ↔
    word.toList ≠ [] ∧ (∀ c ∈ word.toList, Text.isBlank c = false) ∧ IsLexeme word.toList := by
  constructor
  · intro h
    refine ⟨ne_nil_of_tokens h, fun c hc => isBlank_of_tokens h hc, ?_⟩
    exact (tokens_eq_iff.1 h).isLexeme word List.mem_cons_self
  · rintro ⟨hne, hfilled, hplain | hcomparison⟩
    · exact (tokens_of_plain hfilled hne hplain).trans (by rw [String.ofList_toList])
    · have hall : ∀ s ∈ comparisons, tokens s = [String.ofList s] := by decide
      rw [hall _ hcomparison, String.ofList_toList]

/-- Reading a token again gives back the token. -/
theorem tokens_of_mem {token : String} (h : token ∈ tokens s) : tokens token.toList = [token] := by
  have hlexeme := (isCut_tokens s).isLexeme token h
  obtain ⟨word, hword, rfl⟩ := List.mem_map.1 h
  rw [tokens_eq_singleton_iff]
  rw [String.toList_ofList] at hlexeme ⊢
  exact ⟨Text.ne_nil_of_mem_words hword, fun c hc => Text.isBlank_of_mem_words hword hc, hlexeme⟩

/-- When a text is cut into tokens, nothing but its white space is lost, every token is a comparison or
free of comparisons, and with one blank between each two the tokens are cut as before. They are the ones
that come of cutting off the longest comparison, or all that stands before the next one. -/
theorem tokens_lossless (s : List Char) :
    ((tokens s).map String.toList).flatten = (s.filter fun c => !Text.isBlank c) ∧
      (∀ token ∈ tokens s, IsLexeme token.toList) ∧ tokens (joinTokens (tokens s)) = tokens s ∧
        IsCut s (tokens s) := by
  refine ⟨flatten_tokens s, (isCut_tokens s).isLexeme, ?_, isCut_tokens s⟩
  rw [tokens_joinTokens]
  apply tokensOf_of_tokens
  intro token htoken
  exact tokens_of_mem htoken

/-! ### Words put together again -/

/-- The words of a text. -/
def wordsOf (s : List Char) : List String :=
  (Text.words s).map String.ofList

variable {words : List String} {quote : Char}

theorem tokens_trimEnd (s : List Char) : tokens (Text.trimEnd s) = tokens s := by
  obtain ⟨gap, hs, hgap⟩ := Text.trimEnd_append s
  exact (tokens_append_blank hgap _).symm.trans (congrArg tokens hs)

theorem beforeEnd?_append (hne : t ≠ []) (s : List Char) :
    Text.beforeEnd? [';'] (s ++ t) = (Text.beforeEnd? [';'] t).map (s ++ ·) := by
  obtain ⟨last, behind, hlast⟩ := List.exists_cons_of_ne_nil (List.reverse_ne_nil_iff.2 hne)
  rw [Text.beforeEnd?, Text.beforeEnd?, List.reverse_append, hlast]
  change (if ';' == last then some (behind ++ s.reverse) else none).map List.reverse
    = ((if ';' == last then some behind else none).map List.reverse).map (s ++ ·)
  split <;> simp

/-- A trimmed text is empty, or its last character is not blank. -/
theorem trim_cases (s : List Char) :
    Text.trim s = [] ∨ ∃ front last, Text.trim s = front ++ [last] ∧ Text.isBlank last = false := by
  rw [Text.trim, Text.trimEnd]
  cases hcase : (Text.trimStart s).reverse.dropWhile Text.isBlank with
  | nil => exact .inl rfl
  | cons last behind =>
    have hhead := List.head?_dropWhile_not Text.isBlank (Text.trimStart s).reverse
    rw [hcase] at hhead
    exact .inr ⟨behind.reverse, last, List.reverse_cons, by simpa using hhead⟩

/-- What stands behind a part of a statement is read as if it were a statement by itself. -/
theorem tokens_clean_append {first : Char} (hfirst : Text.isBlank first = false)
    (hends : EndsStatement (first :: s)) (t : List Char) :
    tokens (clean (first :: s ++ ' ' :: t)) = tokens (first :: s) ++ tokens (clean t) := by
  have hspace : Text.isBlank ' ' = true := by decide
  obtain ⟨before, hbefore, hblank⟩ := Text.trimStart_append t
  obtain ⟨after, hafter, hblank'⟩ := Text.trimEnd_append (Text.trimStart t)
  rw [← Text.trim] at hafter
  rcases trim_cases t with hnone | ⟨front, last, hlast, hfilled⟩
  · have hall : ∀ c ∈ ' ' :: t, Text.isBlank c = true := by
      rw [hnone, List.nil_append] at hafter
      rw [List.forall_mem_cons, ← hbefore, List.forall_mem_append, ← hafter]
      exact ⟨hspace, hblank, hblank'⟩
    have hclean : clean t = [] := by
      rw [clean, hnone]
      rfl
    rw [clean_of_ends hfirst hends hall, hclean]
    exact (List.append_nil _).symm
  · have htrim : Text.trim (first :: s ++ ' ' :: t)
        = (first :: s ++ ' ' :: before) ++ Text.trim t := by
      have hsplit : first :: s ++ ' ' :: t
          = ((first :: s ++ ' ' :: before) ++ front ++ [last]) ++ after := by
        rw [List.append_assoc _ front, ← hlast, List.append_assoc, List.append_assoc, hafter,
          List.cons_append (a := ' '), hbefore]
      rw [Text.trim, List.cons_append, Text.trimStart_of_head hfirst, ← List.cons_append, hsplit,
        Text.trimEnd_append_blank hblank', Text.trimEnd_of_last hfilled, List.append_assoc, hlast]
    have hne : Text.trim t ≠ [] := by
      rw [hlast]
      exact List.append_ne_nil_of_right_ne_nil front (List.cons_ne_nil last [])
    have hcut : (Text.beforeEnd? [';'] (Text.trim (first :: s ++ ' ' :: t))).getD
        (Text.trim (first :: s ++ ' ' :: t)) = (first :: s ++ ' ' :: before) ++
          (Text.beforeEnd? [';'] (Text.trim t)).getD (Text.trim t) := by
      rw [htrim, beforeEnd?_append hne]
      cases Text.beforeEnd? [';'] (Text.trim t) <;> rfl
    rw [clean, tokens_trimEnd, hcut, List.append_assoc, List.cons_append (a := ' '),
      tokens_append_cons hspace, tokens_blank_append hblank, clean, tokens_trimEnd]

/-- A statement is read by its tokens, and by its text where a part of it is taken as written. -/
theorem parse_eq_commandOf {text verb : String} {rest : List String}
    (h : tokens (clean text.toList) = verb :: rest) :
    ∃ read, parse text = commandOf read verb ⟨clean text.toList, 1, rest⟩ := by
  refine ⟨readWithin text.toList.length, ?_⟩
  rw [parse, readWithin, Cursor.start, h]
  rfl

end Statement

end FlatFileDb
