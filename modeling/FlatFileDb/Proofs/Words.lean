import FlatFileDb.Proofs.Layout
import FlatFileDb.Statement.Parser
import Mathlib.Data.List.TakeWhile

/-!
# Words and tokens of a text

The words of a text are cut at its blanks, and so are its tokens: no token reaches over a blank. So
both can be taken from a text part by part, and what is left behind some words holds the words that
follow them and the tokens of these. A word is its own token where no comparison stands in it; else it
falls into several tokens, or is a comparison itself.
-/

namespace FlatFileDb

namespace Text

variable {s t gap word rest : List Char}

/-- Whether a word that stands in front of a text ends there. -/
def StartsBlank : List Char → Prop
  | [] => True
  | c :: _ => isBlank c = true

/-- The characters of a text are tried one by one, instead of all the characters there are. -/
instance decidableForallMem (p : Char → Prop) [DecidablePred p] (s : List Char) :
    Decidable (∀ c ∈ s, p c) :=
  List.decidableBAll p s

/-! ### Texts trimmed -/

theorem trimStart_append (s : List Char) :
    ∃ gap, gap ++ trimStart s = s ∧ ∀ c ∈ gap, isBlank c = true :=
  ⟨s.takeWhile isBlank, List.takeWhile_append_dropWhile, fun _ hc => List.mem_takeWhile_imp hc⟩

theorem trimEnd_append (s : List Char) :
    ∃ gap, trimEnd s ++ gap = s ∧ ∀ c ∈ gap, isBlank c = true := by
  refine ⟨(s.reverse.takeWhile isBlank).reverse, ?_, fun c hc => ?_⟩
  · rw [trimEnd, ← List.reverse_append, List.takeWhile_append_dropWhile, List.reverse_reverse]
  · exact List.mem_takeWhile_imp (List.mem_reverse.1 hc)

theorem trimStart_blank_append (hgap : ∀ c ∈ gap, isBlank c = true) (s : List Char) :
    trimStart (gap ++ s) = trimStart s := by
  rw [trimStart, List.dropWhile_append, List.dropWhile_eq_nil_iff.2 hgap]
  rfl

theorem trimStart_of_head {c : Char} (h : isBlank c = false) (s : List Char) :
    trimStart (c :: s) = c :: s :=
  List.dropWhile_cons_of_neg (by simp [h])

theorem trimEnd_of_last {c : Char} (h : isBlank c = false) (s : List Char) :
    trimEnd (s ++ [c]) = s ++ [c] := by
  rw [trimEnd, List.reverse_append, List.reverse_singleton, List.singleton_append,
    List.dropWhile_cons_of_neg (by simp [h]), List.reverse_cons, List.reverse_reverse]

theorem trimEnd_append_blank (hgap : ∀ c ∈ gap, isBlank c = true) (s : List Char) :
    trimEnd (s ++ gap) = trimEnd s := by
  rw [trimEnd, List.reverse_append, List.dropWhile_append,
    List.dropWhile_eq_nil_iff.2 fun c hc => hgap c (List.mem_reverse.1 hc)]
  rfl

/-- A text without blanks is trimmed already. -/
theorem trim_of_forall {s : List Char} (h : ∀ c ∈ s, isBlank c = false) : trim s = s := by
  have hkept {part : List Char} (hpart : ∀ c ∈ part, c ∈ s) : part.dropWhile isBlank = part := by
    cases part with
    | nil => rfl
    | cons c rest => exact trimStart_of_head (h c (hpart c List.mem_cons_self)) rest
  rw [trim, trimStart, hkept fun _ hc => hc, trimEnd, hkept fun _ hc => List.mem_reverse.1 hc,
    List.reverse_reverse]

/-- Whether a text is another one with white space around it. -/
def IsPadded (s padded : List Char) : Prop :=
  ∃ before after, (∀ c ∈ before, isBlank c = true) ∧ (∀ c ∈ after, isBlank c = true) ∧
    padded = before ++ (s ++ after)

theorem IsPadded.trim {padded : List Char} (h : IsPadded s padded) : Text.trim padded = Text.trim s := by
  obtain ⟨before, after, hbefore, hafter, rfl⟩ := h
  rw [Text.trim, trimStart_blank_append hbefore, Text.trim, trimStart, trimStart,
    List.dropWhile_append]
  cases hcase : s.dropWhile isBlank with
  | nil => rw [List.isEmpty_nil, if_pos rfl, List.dropWhile_eq_nil_iff.2 hafter]
  | cons c rest =>
    rw [List.isEmpty_cons, if_neg (by simp), trimEnd_append_blank hafter]

/-- The white space around a text brings no other character along. -/
theorem IsPadded.not_mem {padded : List Char} (h : IsPadded s padded) {c : Char}
    (hc : isBlank c = false) (hmem : c ∉ s) : c ∉ padded := by
  obtain ⟨before, after, hbefore, hafter, rfl⟩ := h
  have hgap {gap : List Char} (hgap : ∀ c ∈ gap, isBlank c = true) : c ∉ gap := by
    intro hin
    rw [hgap c hin] at hc
    exact absurd hc (by simp)
  rw [List.mem_append, List.mem_append]
  rintro (hin | hin | hin)
  · exact hgap hbefore hin
  · exact hmem hin
  · exact hgap hafter hin

/-! ### A text by its words -/

/-- A text is blank, or it has a first word. -/
theorem blank_or_word (s : List Char) :
    (∀ c ∈ s, isBlank c = true) ∨ ∃ gap word rest, s = gap ++ (word ++ rest) ∧
      (∀ c ∈ gap, isBlank c = true) ∧ (∀ c ∈ word, isBlank c = false) ∧ word ≠ [] ∧
        StartsBlank rest := by
  obtain ⟨gap, hs, hgap⟩ := trimStart_append s
  cases hcase : trimStart s with
  | nil =>
    rw [hcase, List.append_nil] at hs
    exact .inl (hs ▸ hgap)
  | cons c behind =>
    have hc : isBlank c = false := by
      have hhead := List.head?_dropWhile_not isBlank s
      rw [← trimStart, hcase] at hhead
      exact (by simpa using hhead)
    refine .inr ⟨gap, (c :: behind).takeWhile fun d => !isBlank d,
      (c :: behind).dropWhile fun d => !isBlank d, ?_, hgap, fun d hd => ?_, ?_, ?_⟩
    · rw [List.takeWhile_append_dropWhile, ← hcase, hs]
    · simpa using List.mem_takeWhile_imp hd
    · rw [List.takeWhile_cons_of_pos (by simp [hc])]
      exact List.cons_ne_nil _ _
    · have hhead := List.head?_dropWhile_not (fun d => !isBlank d) (c :: behind)
      cases hrest : (c :: behind).dropWhile fun d => !isBlank d with
      | nil => trivial
      | cons b rest =>
        rw [hrest] at hhead
        change isBlank b = true
        simpa using hhead

/-- Induction on the words of a text, from the last one to the first. -/
theorem word_induction {P : List Char → Prop} (hblank : ∀ s, (∀ c ∈ s, isBlank c = true) → P s)
    (hword : ∀ gap word rest, (∀ c ∈ gap, isBlank c = true) → (∀ c ∈ word, isBlank c = false) →
      word ≠ [] → StartsBlank rest → P rest → P (gap ++ (word ++ rest))) (s : List Char) : P s := by
  rcases blank_or_word s with hs | ⟨gap, word, rest, hs, hgap, hfilled, hne, hrest⟩
  · exact hblank s hs
  · have hshorter : rest.length < s.length := by
      have hpositive := List.length_pos_iff.2 hne
      rw [hs, List.length_append, List.length_append]
      omega
    rw [hs]
    exact hword gap word rest hgap hfilled hne hrest (word_induction hblank hword rest)
termination_by s.length

/-! ### Words -/

theorem words_append_cons {b : Char} (hb : isBlank b = true) (s t : List Char) :
    words (s ++ b :: t) = words s ++ words t := by
  rw [words, List.splitOnP_append_cons s t hb, List.filter_append]
  rfl

theorem words_blank_append (hgap : ∀ c ∈ gap, isBlank c = true) (s : List Char) :
    words (gap ++ s) = words s := by
  induction gap with
  | nil => rfl
  | cons b gap ih =>
    exact (words_append_cons (hgap b (by simp)) [] (gap ++ s)).trans
      (ih fun c hc => hgap c (List.mem_cons_of_mem b hc))

theorem words_of_blank (h : ∀ c ∈ s, isBlank c = true) : words s = [] := by
  have hall := words_blank_append h []
  rw [List.append_nil] at hall
  exact hall.trans rfl

theorem words_append_blank (hgap : ∀ c ∈ gap, isBlank c = true) (s : List Char) :
    words (s ++ gap) = words s := by
  cases gap with
  | nil => rw [List.append_nil]
  | cons b gap =>
    rw [words_append_cons (hgap b (by simp)),
      words_of_blank fun c hc => hgap c (List.mem_cons_of_mem b hc), List.append_nil]

theorem words_single (hword : ∀ c ∈ word, isBlank c = false) (hne : word ≠ []) :
    words word = [word] := by
  rw [words, List.splitOnP_eq_singleton hword, List.filter_cons_of_pos (by simpa using hne)]
  rfl

theorem words_append (hword : ∀ c ∈ word, isBlank c = false) (hne : word ≠ [])
    (hrest : StartsBlank rest) : words (word ++ rest) = word :: words rest := by
  cases rest with
  | nil => rw [List.append_nil, words_single hword hne]; rfl
  | cons b t =>
    rw [words_append_cons hrest, words_single hword hne]
    exact congrArg (word :: ·) (words_append_cons hrest [] t).symm

/-- Put together, the words of a text are its characters that are not blank. -/
theorem flatten_words (s : List Char) : (words s).flatten = s.filter fun c => !isBlank c := by
  induction s using word_induction with
  | hblank s hs =>
    rw [words_of_blank hs, List.filter_eq_nil_iff.2 fun c hc => by simp [hs c hc]]
    rfl
  | hword gap word rest hgap hword hne hrest ih =>
    have hnone : (gap.filter fun c => !isBlank c) = [] :=
      List.filter_eq_nil_iff.2 fun c hc => by simp [hgap c hc]
    have hall : (word.filter fun c => !isBlank c) = word :=
      List.filter_eq_self.2 fun c hc => by simp [hword c hc]
    rw [words_blank_append hgap, words_append hword hne hrest, List.flatten_cons, ih,
      List.filter_append, List.filter_append, hnone, hall, List.nil_append]

theorem ne_nil_of_mem_words (h : word ∈ words s) : word ≠ [] := by
  simpa using (List.mem_filter.1 h).2

theorem isBlank_of_mem_words (h : word ∈ words s) {c : Char} (hc : c ∈ word) :
    isBlank c = false := by
  have hmem : c ∈ (words s).flatten := List.mem_flatten.2 ⟨word, h, hc⟩
  rw [flatten_words, List.mem_filter] at hmem
  simpa using hmem.2

/-! ### What follows some words -/

theorem afterWords_of_blank (h : ∀ c ∈ s, isBlank c = true) (n : Nat) : afterWords n s = [] := by
  have hs : trimStart s = [] := List.dropWhile_eq_nil_iff.2 h
  induction n generalizing s with
  | zero => exact hs
  | succ n ih =>
    rw [afterWords, hs]
    exact ih (by simp) rfl

theorem afterWords_succ (hgap : ∀ c ∈ gap, isBlank c = true) (hword : ∀ c ∈ word, isBlank c = false)
    (hne : word ≠ []) (hrest : StartsBlank rest) (n : Nat) :
    afterWords (n + 1) (gap ++ (word ++ rest)) = afterWords n rest := by
  obtain ⟨c, behind, rfl⟩ := List.exists_cons_of_ne_nil hne
  have hstop : rest.dropWhile (fun d => !isBlank d) = rest := by
    cases rest with
    | nil => rfl
    | cons b t => exact List.dropWhile_cons_of_neg (by simpa [StartsBlank] using hrest)
  have hall : (c :: behind).dropWhile (fun d => !isBlank d) = [] :=
    List.dropWhile_eq_nil_iff.2 fun d hd => by simp [hword d hd]
  rw [afterWords, trimStart_blank_append hgap, List.cons_append,
    trimStart_of_head (hword c (by simp)), ← List.cons_append, List.dropWhile_append, hall,
    List.isEmpty_nil, if_pos rfl, hstop]

/-- The words behind some words are the ones that follow them. -/
theorem words_dropWords (n : Nat) (s : List Char) : words (dropWords n s) = (words s).drop n := by
  have htrimmed (s : List Char) : words (trimEnd s) = words s := by
    obtain ⟨gap, hs, hgap⟩ := trimEnd_append s
    exact (words_append_blank hgap _).symm.trans (congrArg words hs)
  rw [dropWords, htrimmed]
  induction n generalizing s with
  | zero =>
    obtain ⟨gap, hs, hgap⟩ := trimStart_append s
    exact (words_blank_append hgap _).symm.trans (congrArg words hs)
  | succ n ih =>
    rcases blank_or_word s with hs | ⟨gap, word, rest, rfl, hgap, hword, hne, hrest⟩
    · rw [afterWords_of_blank hs, words_of_blank hs]
      rfl
    · rw [afterWords_succ hgap hword hne hrest, ih, words_blank_append hgap,
        words_append hword hne hrest, List.drop_succ_cons]

end Text

/-- No name has a blank in it. -/
theorem Name.isBlank_eq_false {c : Char} (h : Text.isNameChar c = true) :
    Text.isBlank c = false := by
  have hrange : 48 ≤ c.toNat ∧ c.toNat ≤ 122 := by
    change (decide (65 ≤ c.val ∧ c.val ≤ 90) || (decide (97 ≤ c.val) && decide (c.val ≤ 122)) ||
      (decide (48 ≤ c.val) && decide (c.val ≤ 57)) || c == '_') = true at h
    simp only [Bool.or_eq_true, Bool.and_eq_true, decide_eq_true_eq, beq_iff_eq,
      UInt32.le_iff_toNat_le] at h
    rcases h with ((⟨hlow, hhigh⟩ | ⟨hlow, hhigh⟩) | ⟨hlow, hhigh⟩) | rfl
    · exact ⟨Nat.le_trans (by decide) hlow, Nat.le_trans hhigh (by decide)⟩
    · exact ⟨Nat.le_trans (by decide) hlow, Nat.le_trans hhigh (by decide)⟩
    · exact ⟨Nat.le_trans (by decide) hlow, Nat.le_trans hhigh (by decide)⟩
    · decide
  simp only [Text.isBlank, Bool.or_eq_false_iff, Bool.and_eq_false_iff, decide_eq_false_iff_not,
    beq_eq_false_iff_ne]
  omega

namespace Statement

variable {s t gap word rest : List Char}

/-! ### Tokens -/

/-- Whether a character is, or ends, a comparison. -/
def isComparing (c : Char) : Bool :=
  c == '=' || c == '>' || c == '<'

theorem isComparing_of_isBlank {c : Char} (h : Text.isBlank c = true) : isComparing c = false := by
  rw [isComparing, Bool.or_eq_false_iff, Bool.or_eq_false_iff, beq_eq_false_iff_ne,
    beq_eq_false_iff_ne, beq_eq_false_iff_ne]
  refine ⟨⟨?_, ?_⟩, ?_⟩
  all_goals
    rintro rfl
    exact absurd h (by decide)

theorem spaceOut_of_not {c : Char} (h : isComparing c = false) : spaceOut c = [c] := by
  rw [spaceOut, ← isComparing, h]
  rfl

theorem pad_cons {c : Char} (h : isComparing c = false) (hmark : c ≠ '!') (s : List Char) :
    pad (c :: s) = c :: pad s := by
  cases s with
  | nil => exact spaceOut_of_not h
  | cons d rest =>
    rw [isComparing, Bool.or_eq_false_iff, Bool.or_eq_false_iff] at h
    rw [pad, h.1.2, h.2, beq_eq_false_iff_ne.2 hmark, Bool.or_self, Bool.or_false, Bool.and_false,
      if_neg (by simp), spaceOut_of_not (by simp [isComparing, h])]
    rfl

/-- No comparison reaches over a blank. -/
theorem pad_append_cons {b : Char} (hb : Text.isBlank b = true) (s t : List Char) :
    pad (s ++ b :: t) = pad s ++ b :: pad t := by
  have hplain : isComparing b = false := isComparing_of_isBlank hb
  have hmark : b ≠ '!' := by
    rintro rfl
    exact absurd hb (by decide)
  have hequal : (b == '=') = false := by
    rw [isComparing, Bool.or_eq_false_iff, Bool.or_eq_false_iff] at hplain
    exact hplain.1.1
  fun_induction pad s with
  | case1 => exact pad_cons hplain hmark t
  | case2 c =>
    rw [List.singleton_append, pad, hequal, Bool.false_and, if_neg (by simp), pad_cons hplain hmark]
  | case3 c d rest hcompares ih =>
    rw [List.cons_append, List.cons_append, pad, if_pos hcompares, ih]
    rfl
  | case4 c d rest hplain ih =>
    rw [List.cons_append, List.cons_append, pad, if_neg hplain, List.append_assoc,
      ← List.cons_append, ih]

theorem tokens_append_cons {b : Char} (hb : Text.isBlank b = true) (s t : List Char) :
    tokens (s ++ b :: t) = tokens s ++ tokens t := by
  rw [tokens, pad_append_cons hb, Text.words_append_cons hb, List.map_append]
  rfl

theorem tokens_blank_append (hgap : ∀ c ∈ gap, Text.isBlank c = true) (s : List Char) :
    tokens (gap ++ s) = tokens s := by
  induction gap with
  | nil => rfl
  | cons b gap ih =>
    exact (tokens_append_cons (hgap b (by simp)) [] (gap ++ s)).trans
      (ih fun c hc => hgap c (List.mem_cons_of_mem b hc))

theorem tokens_of_blank (h : ∀ c ∈ s, Text.isBlank c = true) : tokens s = [] := by
  have hall := tokens_blank_append h []
  rw [List.append_nil] at hall
  exact hall.trans rfl

theorem tokens_append_blank (hgap : ∀ c ∈ gap, Text.isBlank c = true) (s : List Char) :
    tokens (s ++ gap) = tokens s := by
  cases gap with
  | nil => rw [List.append_nil]
  | cons b gap =>
    rw [tokens_append_cons (hgap b (by simp)),
      tokens_of_blank fun c hc => hgap c (List.mem_cons_of_mem b hc), List.append_nil]

theorem tokens_append (hrest : Text.StartsBlank rest) (s : List Char) :
    tokens (s ++ rest) = tokens s ++ tokens rest := by
  cases rest with
  | nil => rw [List.append_nil]; exact (List.append_nil _).symm
  | cons b t =>
    rw [tokens_append_cons hrest]
    exact congrArg (tokens s ++ ·) (tokens_append_cons hrest [] t).symm

/-- The tokens of a text are those of its first words and those of what follows these. -/
theorem tokens_dropWords (n : Nat) (s : List Char) :
    tokens s = ((Text.words s).take n).flatMap tokens ++ tokens (Text.dropWords n s) := by
  have htrimmed (s : List Char) : tokens (Text.trimEnd s) = tokens s := by
    obtain ⟨gap, hs, hgap⟩ := Text.trimEnd_append s
    exact (tokens_append_blank hgap _).symm.trans (congrArg tokens hs)
  rw [Text.dropWords, htrimmed]
  induction n generalizing s with
  | zero =>
    obtain ⟨gap, hs, hgap⟩ := Text.trimStart_append s
    exact (congrArg tokens hs).symm.trans (tokens_blank_append hgap _)
  | succ n ih =>
    rcases Text.blank_or_word s with hs | ⟨gap, word, rest, rfl, hgap, hword, hne, hrest⟩
    · rw [Text.afterWords_of_blank hs, Text.words_of_blank hs, tokens_of_blank hs]
      rfl
    · rw [Text.afterWords_succ hgap hword hne hrest, tokens_blank_append hgap, tokens_append hrest,
        ih rest, Text.words_blank_append hgap, Text.words_append hword hne hrest, List.take_succ_cons,
        List.flatMap_cons, List.append_assoc]

/-! ### Words that are tokens -/

theorem pad_of_plain (h : ∀ c ∈ s, isComparing c = false) : pad s = s := by
  fun_induction pad s with
  | case1 => rfl
  | case2 c => exact spaceOut_of_not (h c (by simp))
  | case3 c d rest hcompares ih =>
    rw [Bool.and_eq_true] at hcompares
    have hplain := h d (by simp)
    rw [isComparing, hcompares.1] at hplain
    exact absurd hplain (by simp)
  | case4 c d rest hplain ih =>
    rw [spaceOut_of_not (h c (by simp)), ih fun c hc => h c (List.mem_cons_of_mem _ hc)]
    rfl

theorem tokens_of_plain (hword : ∀ c ∈ word, Text.isBlank c = false) (hne : word ≠ [])
    (hplain : ∀ c ∈ word, isComparing c = false) : tokens word = [String.ofList word] := by
  rw [tokens, pad_of_plain hplain, Text.words_single hword hne]
  rfl

/-- Padding adds nothing but blanks. -/
theorem filter_pad (s : List Char) :
    (pad s).filter (fun c => !Text.isBlank c) = s.filter fun c => !Text.isBlank c := by
  have hspace (c : Char) : (spaceOut c).filter (fun c => !Text.isBlank c)
      = [c].filter fun c => !Text.isBlank c := by
    have hblank : Text.isBlank ' ' = true := by decide
    unfold spaceOut
    split <;> simp [List.filter_cons, hblank]
  fun_induction pad s with
  | case1 => rfl
  | case2 c => exact hspace c
  | case3 c d rest hcompares ih =>
    have hblank : Text.isBlank ' ' = true := by decide
    rw [Bool.and_eq_true, beq_iff_eq] at hcompares
    obtain rfl := hcompares.1
    simp only [List.filter_cons, hblank, ih]
    rfl
  | case4 c d rest hplain ih =>
    rw [List.filter_append, hspace, ih, ← List.filter_append]
    rfl

/-- Put together, the tokens of a text are its characters that are not blank. -/
theorem flatten_tokens (s : List Char) :
    ((tokens s).map String.toList).flatten = s.filter fun c => !Text.isBlank c := by
  have hlists : (tokens s).map String.toList = Text.words (pad s) := by
    rw [tokens, List.map_map]
    exact (List.map_congr_left fun word _ => String.toList_ofList).trans (List.map_id _)
  rw [hlists, Text.flatten_words, filter_pad]

theorem isBlank_of_tokens {word : String} (h : tokens word.toList = [word]) {c : Char}
    (hc : c ∈ word.toList) : Text.isBlank c = false := by
  have hall := flatten_tokens word.toList
  rw [h, List.map_singleton, List.flatten_singleton] at hall
  rw [hall, List.mem_filter] at hc
  simpa using hc.2

theorem ne_nil_of_tokens {word : String} (h : tokens word.toList = [word]) : word.toList ≠ [] := by
  intro hnone
  rw [hnone] at h
  exact absurd h (by simp [tokens, pad, Text.words])

theorem isComparing_of_isNameChar {c : Char} (h : Text.isNameChar c = true) :
    isComparing c = false := by
  have hother {d : Char} (hd : Text.isNameChar d = false) : (c == d) = false := by
    rw [beq_eq_false_iff_ne]
    rintro rfl
    rw [h] at hd
    exact absurd hd (by simp)
  rw [isComparing, hother (by decide), hother (by decide), hother (by decide)]
  rfl

theorem isComparing_of_isValid {name : String} (h : Name.isValid name = true) {c : Char}
    (hc : c ∈ name.toList) : isComparing c = false :=
  isComparing_of_isNameChar (Name.isNameChar_of_mem h hc)

/-- A valid name is one token. -/
theorem tokens_of_isValid {name : String} (h : Name.isValid name = true) :
    tokens name.toList = [name] :=
  (tokens_of_plain (fun _ hc => Name.isBlank_eq_false (Name.isNameChar_of_mem h hc))
    (Name.toList_ne_nil h) fun _ hc => isComparing_of_isValid h hc).trans
      (by rw [String.ofList_toList])

/-! ### Statements put together from pieces -/

theorem joinTokens_singleton (piece : String) : joinTokens [piece] = piece.toList := by
  rw [joinTokens, String.intercalate_singleton]

theorem joinTokens_cons_cons (piece next : String) (rest : List String) :
    joinTokens (piece :: next :: rest) = piece.toList ++ ' ' :: joinTokens (next :: rest) := by
  rw [joinTokens, String.intercalate_cons_cons, String.toList_append, String.toList_append]
  exact List.append_assoc _ _ _

/-- The tokens of some pieces, one after the other. -/
def tokensOf (pieces : List String) : List String :=
  pieces.flatMap fun piece => tokens piece.toList

@[simp]
theorem tokensOf_nil : tokensOf [] = [] := rfl

@[simp]
theorem tokensOf_cons (piece : String) (rest : List String) :
    tokensOf (piece :: rest) = tokens piece.toList ++ tokensOf rest := rfl

@[simp]
theorem tokensOf_append (front rest : List String) :
    tokensOf (front ++ rest) = tokensOf front ++ tokensOf rest :=
  List.flatMap_append

theorem tokensOf_of_tokens {words : List String} (h : ∀ word ∈ words, tokens word.toList = [word]) :
    tokensOf words = words := by
  induction words with
  | nil => rfl
  | cons word rest ih =>
    rw [tokensOf_cons, h word (by simp), ih fun other hother => h other (by simp [hother])]
    rfl

theorem tokens_joinTokens (pieces : List String) : tokens (joinTokens pieces) = tokensOf pieces := by
  induction pieces with
  | nil => exact tokens_of_blank (by simp [joinTokens])
  | cons piece pieces ih =>
    cases pieces with
    | nil => rw [joinTokens_singleton, tokensOf_cons, tokensOf_nil, List.append_nil]
    | cons next rest => rw [joinTokens_cons_cons, tokens_append_cons (by decide), ih, tokensOf_cons piece]

/-- Whether a piece may end a statement, as neither a blank nor a semicolon stands at its end. -/
def EndsStatement (piece : List Char) : Prop :=
  ∃ last, piece.getLast? = some last ∧ Text.isBlank last = false ∧ last ≠ ';'

theorem endsStatement_of_tokens {word : String} (h : tokens word.toList = [word])
    (hend : ';' ∉ word.toList) : EndsStatement word.toList := by
  have hne := ne_nil_of_tokens h
  refine ⟨_, List.getLast?_eq_some_getLast hne, isBlank_of_tokens h (List.getLast_mem hne), ?_⟩
  intro hlast
  exact hend (hlast ▸ List.getLast_mem hne)

theorem endsStatement_joinTokens {pieces : List String} (hne : pieces ≠ [])
    (h : ∀ piece ∈ pieces, EndsStatement piece.toList) : EndsStatement (joinTokens pieces) := by
  induction pieces with
  | nil => exact absurd rfl hne
  | cons piece rest ih =>
    cases rest with
    | nil =>
      rw [joinTokens_singleton]
      exact h piece (by simp)
    | cons next rest =>
      obtain ⟨last, hlast, hblank, hend⟩ := ih (by simp) fun other hother => h other (by simp [hother])
      refine ⟨last, ?_, hblank, hend⟩
      rw [joinTokens_cons_cons, List.getLast?_append, List.getLast?_cons, hlast]
      rfl

/-- Nothing but the blanks behind it is taken off a text whose ends are neither blanks nor a
semicolon. -/
theorem clean_of_ends {first : Char} (hfirst : Text.isBlank first = false)
    (h : EndsStatement (first :: s)) (hgap : ∀ c ∈ gap, Text.isBlank c = true) :
    clean (first :: s ++ gap) = first :: s := by
  obtain ⟨last, hlast, hblank, hend⟩ := h
  obtain ⟨before, hs⟩ := List.getLast?_eq_some_iff.1 hlast
  have htrimEnd : Text.trimEnd (first :: s) = first :: s := by
    rw [hs, Text.trimEnd_of_last hblank]
  have htrim : Text.trim (first :: s ++ gap) = first :: s := by
    rw [Text.trim, List.cons_append, Text.trimStart_of_head hfirst, ← List.cons_append,
      Text.trimEnd_append_blank hgap, htrimEnd]
  have hnoEnd : Text.beforeEnd? [';'] (first :: s) = none := by
    rw [Text.beforeEnd?, Option.map_eq_none_iff, hs, List.reverse_append]
    simp [Text.afterStart?, hend.symm]
  rw [clean, htrim, hnoEnd, Option.getD_none, htrimEnd]

/-- What a statement that is put together from pieces is read as. -/
theorem parse_of_clean {text verb : String} {pieces : List String}
    (hverb : tokens verb.toList = [verb]) (h : clean text.toList = joinTokens (verb :: pieces)) :
    ∃ read, parse text = commandOf read verb ⟨joinTokens (verb :: pieces), 1, tokensOf pieces⟩ := by
  refine ⟨readWithin text.toList.length, ?_⟩
  rw [parse, readWithin, h, Cursor.start, tokens_joinTokens, tokensOf_cons, hverb]
  rfl

theorem clean_joinTokens {verb : String} {pieces : List String} (hverb : tokens verb.toList = [verb])
    (h : ∀ piece ∈ verb :: pieces, EndsStatement piece.toList)
    (hgap : ∀ c ∈ gap, Text.isBlank c = true) :
    clean (joinTokens (verb :: pieces) ++ gap) = joinTokens (verb :: pieces) := by
  obtain ⟨first, behind, hfirst⟩ := List.exists_cons_of_ne_nil (ne_nil_of_tokens hverb)
  have hblank : Text.isBlank first = false := isBlank_of_tokens hverb (by simp [hfirst])
  obtain ⟨rest, hrest⟩ : ∃ rest, joinTokens (verb :: pieces) = first :: rest := by
    cases pieces with
    | nil => exact ⟨behind, by rw [joinTokens_singleton, hfirst]⟩
    | cons next rest => exact ⟨_, by rw [joinTokens_cons_cons, hfirst]; rfl⟩
  have hends := endsStatement_joinTokens (by simp) h
  rw [hrest] at hends ⊢
  exact clean_of_ends hblank hends hgap

theorem parse_joinTokens {verb : String} {pieces : List String}
    (hverb : tokens verb.toList = [verb])
    (h : ∀ piece ∈ verb :: pieces, EndsStatement piece.toList) :
    ∃ read, parse (" ".intercalate (verb :: pieces))
      = commandOf read verb ⟨joinTokens (verb :: pieces), 1, tokensOf pieces⟩ := by
  refine parse_of_clean hverb ?_
  rw [← joinTokens, ← List.append_nil (joinTokens (verb :: pieces))]
  exact (clean_joinTokens hverb h (by simp)).trans (List.append_nil _).symm

end Statement

end FlatFileDb
