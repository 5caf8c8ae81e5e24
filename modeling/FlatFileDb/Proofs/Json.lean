import FlatFileDb.Json.Parser
import FlatFileDb.Json.Printer
import Mathlib.Data.List.DropRight
import Mathlib.Tactic.IntervalCases
import Mathlib.Tactic.SplitIfs

/-!
# What is written is read back

The grammar of stored values as a relation between a value and the texts that spell it, with blanks
wherever they may stand. Both layouts of the printer spell the value they are given, and the parser
reads every spelling, so a value without garbled parts and without numbers kept as texts comes back
as it was. The rest reaches the layouts only through `ofText?_compact` and `ofText?_indented`.
-/

namespace FlatFileDb

namespace Number

theorem isDigit_of_mem_decimalDigits {n : Nat} {c : Char} (h : c ∈ decimalDigits n) :
    c.isDigit = true :=
  Nat.isDigit_of_mem_toDigits (by decide) (by decide) h

theorem decimalDigits_ne_nil (n : Nat) : decimalDigits n ≠ [] :=
  Nat.toDigits_ne_nil

theorem digitsFrom_eq (s : List Char) (h : ∀ c ∈ s, c.isDigit = true) (value : Nat) :
    digitsFrom value s = some (Nat.ofDigitChars 10 s value) := by
  induction s generalizing value with
  | nil => simp [digitsFrom]
  | cons c rest ih =>
    have hc : c.isDigit = true := h c (by simp)
    have hrest : ∀ d ∈ rest, d.isDigit = true := fun d hd => h d (by simp [hd])
    rw [digitsFrom, if_pos hc, ih hrest, Nat.ofDigitChars_cons, Nat.mul_comm]
    rfl

theorem digitsFrom_decimalDigits (n : Nat) : digitsFrom 0 (decimalDigits n) = some n := by
  rw [digitsFrom_eq _ fun c hc => isDigit_of_mem_decimalDigits hc, decimalDigits,
    Nat.ofDigitChars_ten_toDigits]

theorem readDigits?_decimalDigits (n : Nat) : readDigits? (decimalDigits n) = some n := by
  rw [readDigits?, List.isEmpty_eq_false_iff.2 (decimalDigits_ne_nil _), if_neg (by simp),
    digitsFrom_decimalDigits]

/-- No sign stands in front of the digits. -/
theorem decimalDigits_ne_cons {n : Nat} {c : Char} (h : c.isDigit = false) (rest : List Char) :
    decimalDigits n ≠ c :: rest := by
  intro hcons
  have hdigit : c.isDigit = true := isDigit_of_mem_decimalDigits (n := n) (by simp [hcons])
  rw [hdigit] at h
  exact absurd h (by simp)

theorem readNatural?_decimalDigits {n limit : Nat} (h : n < limit) :
    readNatural? limit (decimalDigits n) = some n := by
  unfold readNatural?
  split
  · rename_i hplus
    exact absurd hplus (decimalDigits_ne_cons (by decide) _)
  · dsimp only
    rw [readDigits?_decimalDigits]
    exact Option.filter_some_pos (by simpa using h)

/-- No number is written with a needless zero in front. -/
theorem head_decimalDigits {n : Nat} (h : (decimalDigits n).head? = some '0') : n = 0 := by
  unfold decimalDigits at h
  induction n using Nat.strongRecOn with
  | ind n ih =>
    by_cases hn : n < 10
    · rw [Nat.toDigits_of_lt_base hn, List.head?_cons, Option.some.injEq] at h
      interval_cases n <;> first | rfl | exact absurd h (by decide)
    · obtain ⟨d, tail, hd⟩ := List.exists_cons_of_ne_nil (@Nat.toDigits_ne_nil (n / 10) 10)
      rw [Nat.toDigits_of_base_le (by decide) (by omega), hd, List.cons_append] at h
      have hdiv : n / 10 = 0 := ih (n / 10) (by omega) (by rw [hd]; exact h)
      omega

end Number

namespace Json

/-! ### Blanks and texts -/

/-- Nothing but blanks. -/
def IsGap (s : List Char) : Prop :=
  ∀ c ∈ s, (c == ' ' || c == '\t' || c == '\n' || c == '\r') = true

theorem isGap_nil : IsGap [] := by simp [IsGap]

theorem skipBlanks_append {gap : List Char} (h : IsGap gap) (s : List Char) :
    skipBlanks (gap ++ s) = skipBlanks s :=
  List.dropWhile_append_of_pos h

theorem skipBlanks_cons {c : Char} (h : (c == ' ' || c == '\t' || c == '\n' || c == '\r') = false)
    (s : List Char) : skipBlanks (c :: s) = c :: s :=
  List.dropWhile_cons_of_neg (by simp [h])

theorem toList_newLine (level : Nat) :
    (newLine level).toList = '\n' :: List.replicate (2 * level) ' ' :=
  String.toList_ofList

theorem isGap_newLine (level : Nat) : IsGap (newLine level).toList := by
  intro c hc
  rw [toList_newLine, List.mem_cons, List.mem_replicate] at hc
  rcases hc with rfl | ⟨-, rfl⟩ <;> decide

private theorem readSymbols?_control (n : Nat) (h : n < 32) (rest : List Char) :
    readSymbols? ('\\' :: 'u' :: '0' :: '0' :: hexDigit (n / 16) :: hexDigit (n % 16) :: rest)
      = (readSymbols? rest).map fun (symbols, rest) => (.char (Char.ofNat n) :: symbols, rest) := by
  have hunit : hexUnit? '0' '0' (hexDigit (n / 16)) (hexDigit (n % 16)) = some n := by
    interval_cases n <;> decide
  have hsymbol : Symbol.ofUnit n = .char (Char.ofNat n) := by
    rw [Symbol.ofUnit, if_neg (by omega)]
  rw [readSymbols?, hunit]
  simp only [hsymbol, Option.bind_eq_bind, Option.bind_some]
  cases readSymbols? rest <;> rfl

/-- An escaped character is read as one symbol. -/
theorem readSymbols?_escapeChar (c : Char) (rest : List Char) :
    readSymbols? (escapeChar c ++ rest)
      = (readSymbols? rest).map fun (symbols, rest) => (.char c :: symbols, rest) := by
  have hnat {n : Nat} (h : c.toNat = n) : c = Char.ofNat n := by rw [← h, Char.ofNat_toNat]
  have hshort (letter : Char) (hu : letter ≠ 'u') (h : unescape? letter = some c) :
      readSymbols? ('\\' :: letter :: rest)
        = (readSymbols? rest).map fun (symbols, rest) => (.char c :: symbols, rest) := by
    rw [readSymbols?]
    · rw [h]
      cases readSymbols? rest <;> rfl
    · intro a b c d rest hletter
      exact absurd hletter hu
  unfold escapeChar
  split_ifs with hquote hslash h8 h9 h10 h12 h13 hcontrol
  · exact hshort '"' (by decide) (by rw [eq_of_beq hquote]; rfl)
  · exact hshort '\\' (by decide) (by rw [eq_of_beq hslash]; rfl)
  · exact hshort 'b' (by decide) (by rw [hnat h8]; rfl)
  · exact hshort 't' (by decide) (by rw [hnat h9]; rfl)
  · exact hshort 'n' (by decide) (by rw [hnat h10]; rfl)
  · exact hshort 'f' (by decide) (by rw [hnat h12]; rfl)
  · exact hshort 'r' (by decide) (by rw [hnat h13]; rfl)
  · have := readSymbols?_control c.toNat hcontrol rest
    rwa [Char.ofNat_toNat] at this
  · have hplain : (c.toNat < 32 || c == '\\') = false := by
      simp only [Bool.or_eq_false_iff, decide_eq_false_iff_not]
      exact ⟨hcontrol, by simpa using hslash⟩
    have hne : c ≠ '\\' := fun h => hslash (by rw [h]; rfl)
    rw [List.singleton_append, readSymbols?]
    · rw [if_neg (by simp [hplain])]
      cases readSymbols? rest <;> rfl
    · exact fun h => hquote (by rw [h]; rfl)
    · exact fun a b c d rest h => absurd h hne
    · exact fun d rest h => absurd h hne

theorem readSymbols?_flatMap (s rest : List Char) :
    readSymbols? (s.flatMap escapeChar ++ '"' :: rest) = some (s.map .char, rest) := by
  induction s with
  | nil => simp [readSymbols?]
  | cons c s ih =>
    rw [List.flatMap_cons, List.append_assoc, readSymbols?_escapeChar, ih]
    rfl

theorem characters?_map (s : List Char) : Symbol.characters? (s.map .char) = some s := by
  induction s with
  | nil => rfl
  | cons c s ih => simp [Symbol.characters?, ih]

private theorem readPlain_stop (found : String) (c : Char) (h : isPlain c = false)
    (rest : List Char) : readPlain found (c :: rest) = (found, c :: rest) := by
  rw [readPlain, if_neg (by simp [h])]

/-- What stands between quotes is taken in two runs: plain characters first, then symbols. -/
theorem readPlain_flatMap (s rest : List Char) (found : String) :
    ∃ before after, s = before ++ after ∧
      readPlain found (s.flatMap escapeChar ++ '"' :: rest)
        = (found ++ String.ofList before, after.flatMap escapeChar ++ '"' :: rest) := by
  induction s generalizing found with
  | nil =>
    refine ⟨[], [], rfl, ?_⟩
    rw [List.flatMap_nil, List.nil_append, readPlain_stop found '"' (by decide)]
    simp
  | cons c s ih =>
    by_cases hc : isPlain c = true
    · obtain ⟨before, after, hs, hread⟩ := ih (found.push c)
      refine ⟨c :: before, after, by rw [hs, List.cons_append], ?_⟩
      rw [List.flatMap_cons, escapeChar_of_isPlain hc, List.singleton_append, List.cons_append,
        readPlain, if_pos hc, hread]
      congr 1
      apply String.toList_inj.1
      simp
    · refine ⟨[], c :: s, rfl, ?_⟩
      have hhead : ∃ d tail, escapeChar c = d :: tail ∧ isPlain d = false := by
        unfold escapeChar
        split_ifs with hquote hslash h8 h9 h10 h12 h13 hcontrol
        all_goals first
          | exact ⟨_, _, rfl, by decide⟩
          | exact ⟨_, _, rfl, by simpa using hc⟩
      obtain ⟨d, tail, hescape, hd⟩ := hhead
      rw [List.flatMap_cons, hescape, List.cons_append, List.cons_append, readPlain_stop _ _ hd]
      simp

/-- A text is read back from between its quotes. -/
theorem readText?_flatMap (s : String) (rest : List Char) :
    readText? (s.toList.flatMap escapeChar ++ '"' :: rest) = some (some s, rest) := by
  obtain ⟨before, after, hs, hread⟩ := readPlain_flatMap s.toList rest ""
  rw [readText?, hread]
  simp only [readSymbols?_flatMap, characters?_map, Option.map_some, Option.some.injEq,
    Prod.mk.injEq, and_true]
  apply String.toList_inj.1
  simp [hs]

/-! ### The grammar -/

mutual

/-- The texts that spell a value, without blanks around them. -/
inductive Spells : Json → List Char → Prop where
  | null : Spells null ['n', 'u', 'l', 'l']
  | yes : Spells (bool true) ['t', 'r', 'u', 'e']
  | no : Spells (bool false) ['f', 'a', 'l', 's', 'e']
  | natural (n : Nat) : Spells (natural n) (Number.decimalDigits n)
  | string (s : String) : Spells (string s) ('"' :: s.toList.flatMap escapeChar ++ ['"'])
  | noElements : Spells (array []) ['[', ']']
  | array {elements : List Json} {s : List Char} (inside : SpellsElements elements s) :
      Spells (array elements) ('[' :: s ++ [']'])
  | noMembers : Spells (object []) ['\x7b', '\x7d']
  | object {members : List (String × Json)} {s : List Char} (inside : SpellsMembers members s) :
      Spells (object members) ('\x7b' :: s ++ ['\x7d'])

/-- The texts that spell the elements of an array, at least one. -/
inductive SpellsElements : List Json → List Char → Prop where
  | last {value : Json} {front s back : List Char} (hfront : IsGap front)
      (head : Spells value s) (hback : IsGap back) :
      SpellsElements [value] (front ++ s ++ back)
  | more {value : Json} {values : List Json} {front s tail : List Char} (hfront : IsGap front)
      (head : Spells value s) (rest : SpellsElements values tail) :
      SpellsElements (value :: values) (front ++ s ++ ',' :: tail)

/-- The texts that spell the members of an object, at least one. -/
inductive SpellsMembers : List (String × Json) → List Char → Prop where
  | last {name : String} {value : Json} {front middle s back : List Char} (hfront : IsGap front)
      (hmiddle : IsGap middle) (head : Spells value s) (hback : IsGap back) :
      SpellsMembers [(name, value)]
        (front ++ '"' :: name.toList.flatMap escapeChar ++ '"' :: ':' :: middle ++ s ++ back)
  | more {name : String} {value : Json} {members : List (String × Json)}
      {front middle s tail : List Char} (hfront : IsGap front) (hmiddle : IsGap middle)
      (head : Spells value s) (rest : SpellsMembers members tail) :
      SpellsMembers ((name, value) :: members)
        (front ++ '"' :: name.toList.flatMap escapeChar ++ '"' :: ':' :: middle ++ s ++ ',' :: tail)

end

/-- The characters that a spelling starts with. -/
def startsValue (c : Char) : Bool :=
  c.isDigit || c == 'n' || c == 't' || c == 'f' || c == '"' || c == '[' || c == '\x7b'

theorem Spells.exists_head {value : Json} {s : List Char} (h : Spells value s) :
    ∃ c tail, s = c :: tail ∧ startsValue c = true := by
  cases h with
  | natural n =>
    obtain ⟨c, tail, hs⟩ := List.exists_cons_of_ne_nil (Number.decimalDigits_ne_nil n)
    have hc : c.isDigit = true := Number.isDigit_of_mem_decimalDigits (n := n) (by simp [hs])
    exact ⟨c, tail, hs, by simp [startsValue, hc]⟩
  | _ => exact ⟨_, _, rfl, by decide⟩

private theorem isBlank_of_startsValue {c : Char} (h : startsValue c = true) :
    (c == ' ' || c == '\t' || c == '\n' || c == '\r') = false := by
  by_contra hblank
  simp only [Bool.not_eq_false, Bool.or_eq_true, beq_iff_eq] at hblank
  rcases hblank with ((rfl | rfl) | rfl) | rfl <;> exact absurd h (by decide)

theorem Spells.skipBlanks {value : Json} {s : List Char} (h : Spells value s) {front : List Char}
    (hfront : IsGap front) (rest : List Char) :
    skipBlanks (front ++ (s ++ rest)) = s ++ rest := by
  obtain ⟨c, tail, rfl, hc⟩ := h.exists_head
  rw [skipBlanks_append hfront, List.cons_append, skipBlanks_cons (isBlank_of_startsValue hc)]

/-! ### Reading a spelling -/

/-- What may stand behind a number: nothing that would lengthen it. -/
def EndsNumber (rest : List Char) : Prop :=
  ∀ c, rest.head? = some c → (c.isDigit || c == '.' || c == 'e' || c == 'E') = false

private theorem takeDigits {n : Nat} {rest : List Char} (h : EndsNumber rest) :
    (Number.decimalDigits n ++ rest).takeWhile Char.isDigit = Number.decimalDigits n ∧
      (Number.decimalDigits n ++ rest).dropWhile Char.isDigit = rest := by
  have hall : ∀ c ∈ Number.decimalDigits n, c.isDigit = true :=
    fun c hc => Number.isDigit_of_mem_decimalDigits hc
  rw [List.takeWhile_append_of_pos hall, List.dropWhile_append_of_pos hall]
  cases rest with
  | nil => simp
  | cons c tail =>
    have hc := h c rfl
    simp only [Bool.or_eq_false_iff] at hc
    simp [hc.1.1.1]

theorem readMagnitude?_decimalDigits (n : Nat) {rest : List Char} (h : EndsNumber rest) :
    readMagnitude? (Number.decimalDigits n ++ rest) = some (natural n, rest) := by
  have hzero : ¬((Number.decimalDigits n).length > 1 ∧ (Number.decimalDigits n).head? = some '0') := by
    rintro ⟨hlength, hhead⟩
    rw [Number.head_decimalDigits hhead] at hlength
    exact absurd hlength (by decide)
  have hfraction : readFraction? rest = some ([], rest) := by
    cases rest with
    | nil => rfl
    | cons c tail =>
      rw [readFraction?]
      intro tail' heq
      have hc := h c rfl
      rw [(List.cons.inj heq).1] at hc
      exact absurd hc (by decide)
  have hexponent : readExponent? rest = some ([], rest) := by
    cases rest with
    | nil => rfl
    | cons c tail =>
      have hc := h c rfl
      simp only [Bool.or_eq_false_iff] at hc
      exact if_neg (by simp [hc.1.2, hc.2])
  have hdigits : readSomeDigits? (Number.decimalDigits n ++ rest)
      = some (Number.decimalDigits n, rest) := by
    rw [readSomeDigits?, (takeDigits h).1, (takeDigits h).2, if_neg]
    simp [Number.decimalDigits_ne_nil]
  rw [readMagnitude?, hdigits]
  simp only [Option.bind_eq_bind, Option.bind_some, hfraction, hexponent]
  rw [if_neg (by simpa using hzero)]
  simp [Number.digitsFrom_decimalDigits]

private theorem readNumber?_decimalDigits (n : Nat) {rest : List Char} (h : EndsNumber rest) :
    readNumber? (Number.decimalDigits n ++ rest) = some (natural n, rest) := by
  rw [readNumber?]
  · exact readMagnitude?_decimalDigits n h
  · intro tail heq
    obtain ⟨c, digits, hs⟩ := List.exists_cons_of_ne_nil (Number.decimalDigits_ne_nil n)
    have hc : c.isDigit = true := Number.isDigit_of_mem_decimalDigits (n := n) (by simp [hs])
    rw [hs, List.cons_append] at heq
    rw [(List.cons.inj heq).1] at hc
    exact absurd hc (by decide)

private theorem readValue?_number {s : List Char} {c : Char} {tail : List Char} (hs : s = c :: tail)
    (hc : c.isDigit = true) (fuel : Nat) : readValue? (fuel + 1) s = readNumber? s := by
  have hne (d : Char) (hd : d.isDigit = false) : c ≠ d := by
    rintro rfl
    rw [hc] at hd
    exact Bool.noConfusion hd
  have hskip : skipBlanks s = s := by
    rw [hs]
    exact skipBlanks_cons (isBlank_of_startsValue (by simp [startsValue, hc])) tail
  rw [readValue?, hskip, hs]
  split
  case h_7 => rfl
  all_goals
    rename_i heq
    exact absurd (List.cons.inj heq).1 (hne _ (by decide))

private theorem endsNumber_cons {c : Char} (h : (c.isDigit || c == '.' || c == 'e' || c == 'E') = false)
    (rest : List Char) : EndsNumber (c :: rest) := by
  intro d hd
  rw [List.head?_cons, Option.some.injEq] at hd
  exact hd ▸ h

theorem endsNumber_nil : EndsNumber [] := by
  intro c hc
  exact absurd hc (by simp)

private theorem endsNumber_append {gap : List Char} (hgap : IsGap gap) {rest : List Char}
    (h : EndsNumber rest) : EndsNumber (gap ++ rest) := by
  cases gap with
  | nil => exact h
  | cons c gap =>
    have hc := hgap c (by simp)
    simp only [Bool.or_eq_true, beq_iff_eq] at hc
    exact endsNumber_cons (by rcases hc with ((rfl | rfl) | rfl) | rfl <;> decide) _

private theorem skipBlanks_skipBlanks (s : List Char) : skipBlanks (skipBlanks s) = skipBlanks s :=
  List.dropWhile_idempotent _ _

private theorem readValue?_skipBlanks (fuel : Nat) (s : List Char) :
    readValue? fuel (skipBlanks s) = readValue? fuel s := by
  cases fuel with
  | zero => rfl
  | succ fuel => rw [readValue?, readValue?, skipBlanks_skipBlanks]

private theorem readElements?_skipBlanks (fuel : Nat) (s : List Char) :
    readElements? fuel (skipBlanks s) = readElements? fuel s := by
  cases fuel with
  | zero => rfl
  | succ fuel => rw [readElements?, readElements?, readValue?_skipBlanks]

private theorem readMembers?_skipBlanks (fuel : Nat) (s : List Char) :
    readMembers? fuel (skipBlanks s) = readMembers? fuel s := by
  cases fuel with
  | zero => rfl
  | succ fuel => rw [readMembers?, readMembers?, skipBlanks_skipBlanks]

private theorem SpellsElements.skipBlanks {elements : List Json} {s : List Char}
    (h : SpellsElements elements s) (rest : List Char) :
    ∃ c tail, Json.skipBlanks (s ++ rest) = c :: tail ∧ startsValue c = true := by
  cases h with
  | last hfront head hback =>
    obtain ⟨c, tail, hs, hc⟩ := head.exists_head
    exact ⟨c, _, by rw [List.append_assoc, List.append_assoc, head.skipBlanks hfront, hs]; rfl, hc⟩
  | more hfront head more =>
    obtain ⟨c, tail, hs, hc⟩ := head.exists_head
    exact ⟨c, _, by rw [List.append_assoc, List.append_assoc, head.skipBlanks hfront, hs]; rfl, hc⟩

private theorem SpellsMembers.skipBlanks {members : List (String × Json)} {s : List Char}
    (h : SpellsMembers members s) (rest : List Char) :
    ∃ tail, Json.skipBlanks (s ++ rest) = '"' :: tail := by
  cases h with
  | last hfront hmiddle head hback =>
    simp only [List.append_assoc, List.cons_append]
    exact ⟨_, by rw [skipBlanks_append hfront, skipBlanks_cons (by decide)]⟩
  | more hfront hmiddle head more =>
    simp only [List.append_assoc, List.cons_append]
    exact ⟨_, by rw [skipBlanks_append hfront, skipBlanks_cons (by decide)]⟩

private theorem readValue?_array {fuel : Nat} {s rest : List Char} {elements : List Json}
    (hinside : SpellsElements elements s)
    (hread : readElements? fuel (s ++ ']' :: rest) = some (elements, rest)) :
    readValue? (fuel + 1) ('[' :: s ++ [']'] ++ rest) = some (array elements, rest) := by
  obtain ⟨c, tail, hskip, hc⟩ := hinside.skipBlanks (']' :: rest)
  have hne : c ≠ ']' := by
    rintro rfl
    exact absurd hc (by decide)
  have hskipped : readElements? fuel (c :: tail) = some (elements, rest) := by
    rw [← hskip, readElements?_skipBlanks, hread]
  have htext : '[' :: s ++ [']'] ++ rest = '[' :: (s ++ ']' :: rest) := by simp
  rw [htext, readValue?, skipBlanks_cons (by decide)]
  simp only [hskip]
  split
  · rename_i heq
    exact absurd (List.cons.inj heq).1 hne
  · rw [hskipped]
    rfl

private theorem readValue?_object {fuel : Nat} {s rest : List Char}
    {members : List (String × Json)} (hinside : SpellsMembers members s)
    (hread : readMembers? fuel (s ++ '\x7d' :: rest) = some (some members, rest)) :
    readValue? (fuel + 1) ('\x7b' :: s ++ ['\x7d'] ++ rest) = some (object members, rest) := by
  obtain ⟨tail, hskip⟩ := hinside.skipBlanks ('\x7d' :: rest)
  have hskipped : readMembers? fuel ('"' :: tail) = some (some members, rest) := by
    rw [← hskip, readMembers?_skipBlanks, hread]
  have htext : '\x7b' :: s ++ ['\x7d'] ++ rest = '\x7b' :: (s ++ '\x7d' :: rest) := by simp
  rw [htext, readValue?, skipBlanks_cons (by decide)]
  simp only [hskip]
  exact congrArg (Option.map _) hskipped

private theorem readMembers?_name {fuel : Nat} {front middle tail : List Char} {name : String}
    (hfront : IsGap front) :
    readMembers? (fuel + 1)
        (front ++ '"' :: (name.toList.flatMap escapeChar ++ '"' :: ':' :: (middle ++ tail)))
      = (readValue? fuel (middle ++ tail)).bind fun (value, rest) =>
          match skipBlanks rest with
          | ',' :: rest => (readMembers? fuel rest).map fun (members, rest) =>
            (members.map fun members => (name, value) :: members, rest)
          | '\x7d' :: rest => some (some [(name, value)], rest)
          | _ => none := by
  rw [readMembers?, skipBlanks_append hfront, skipBlanks_cons (by decide)]
  simp only [readText?_flatMap, Option.bind_eq_bind, Option.bind_some]
  rw [skipBlanks_cons (by decide)]
  simp only [Option.map_some]
  congr 1
  funext read
  obtain ⟨value, rest⟩ := read
  simp only
  generalize skipBlanks rest = left
  split
  · refine (Option.bind_congr fun read _ => ?_).trans Option.map_eq_bind.symm
    rcases read with ⟨_ | members, rest⟩ <;> rfl
  · rfl
  · grind

mutual

/-- A value is read from each of its spellings; two steps of fuel for each character are enough. -/
theorem Spells.readValue? {value : Json} {s : List Char} (h : Spells value s) (fuel : Nat)
    (hfuel : 2 * s.length + 1 ≤ fuel) (rest : List Char) (hrest : EndsNumber rest) :
    readValue? fuel (s ++ rest) = some (value, rest) := by
  obtain ⟨fuel, rfl⟩ : ∃ n, fuel = n + 1 := ⟨fuel - 1, by omega⟩
  match h with
  | .null => rfl
  | .yes => rfl
  | .no => rfl
  | .natural n =>
    obtain ⟨c, tail, hs⟩ := List.exists_cons_of_ne_nil (Number.decimalDigits_ne_nil n)
    have hc : c.isDigit = true := Number.isDigit_of_mem_decimalDigits (n := n) (by simp [hs])
    rw [readValue?_number (by rw [hs, List.cons_append]) hc]
    exact readNumber?_decimalDigits n hrest
  | .string text =>
    have hread := readText?_flatMap text rest
    simp only [List.cons_append, List.append_assoc, List.nil_append]
    rw [Json.readValue?, skipBlanks_cons (by decide)]
    simp [hread, orGarbled]
  | .noElements => rfl
  | .array inside =>
    refine readValue?_array inside (inside.readElements? fuel ?_ rest)
    simp only [List.length_append, List.length_cons, List.length_nil] at hfuel
    omega
  | .noMembers => rfl
  | .object inside =>
    refine readValue?_object inside (inside.readMembers? fuel ?_ rest)
    simp only [List.length_append, List.length_cons, List.length_nil] at hfuel
    omega

theorem SpellsElements.readElements? {elements : List Json} {s : List Char}
    (h : SpellsElements elements s) (fuel : Nat) (hfuel : 2 * s.length + 2 ≤ fuel)
    (rest : List Char) : readElements? fuel (s ++ ']' :: rest) = some (elements, rest) := by
  obtain ⟨fuel, rfl⟩ : ∃ n, fuel = n + 1 := ⟨fuel - 1, by omega⟩
  match h with
  | @SpellsElements.last _ _ _ back hfront head hback =>
    simp only [List.length_append] at hfuel
    have hread := head.readValue? fuel (by omega) (back ++ ']' :: rest)
      (endsNumber_append hback (endsNumber_cons (by decide) _))
    simp only [List.append_assoc]
    rw [Json.readElements?, ← readValue?_skipBlanks, head.skipBlanks hfront, hread]
    simp only [Option.bind_eq_bind, Option.bind_some]
    rw [skipBlanks_append hback, skipBlanks_cons (by decide)]
    rfl
  | @SpellsElements.more _ _ _ _ tail hfront head more =>
    simp only [List.length_append, List.length_cons] at hfuel
    have hread := head.readValue? fuel (by omega) (',' :: (tail ++ ']' :: rest))
      (endsNumber_cons (by decide) _)
    have hmore := more.readElements? fuel (by omega) rest
    simp only [List.append_assoc, List.cons_append]
    rw [Json.readElements?, ← readValue?_skipBlanks, head.skipBlanks hfront, hread]
    simp only [Option.bind_eq_bind, Option.bind_some]
    rw [skipBlanks_cons (by decide)]
    simp [hmore]

theorem SpellsMembers.readMembers? {members : List (String × Json)} {s : List Char}
    (h : SpellsMembers members s) (fuel : Nat) (hfuel : 2 * s.length + 2 ≤ fuel)
    (rest : List Char) :
    readMembers? fuel (s ++ '\x7d' :: rest) = some (some members, rest) := by
  obtain ⟨fuel, rfl⟩ : ∃ n, fuel = n + 1 := ⟨fuel - 1, by omega⟩
  match h with
  | @SpellsMembers.last _ _ _ _ _ back hfront hmiddle head hback =>
    simp only [List.length_append, List.length_cons] at hfuel
    have hread := head.readValue? fuel (by omega) (back ++ '\x7d' :: rest)
      (endsNumber_append hback (endsNumber_cons (by decide) _))
    simp only [List.append_assoc, List.cons_append]
    rw [readMembers?_name hfront, ← readValue?_skipBlanks, head.skipBlanks hmiddle, hread,
      Option.bind_some]
    simp only
    rw [skipBlanks_append hback, skipBlanks_cons (by decide)]
    rfl
  | @SpellsMembers.more _ _ _ _ _ _ tail hfront hmiddle head more =>
    simp only [List.length_append, List.length_cons] at hfuel
    have hread := head.readValue? fuel (by omega) (',' :: (tail ++ '\x7d' :: rest))
      (endsNumber_cons (by decide) _)
    have hmore := more.readMembers? fuel (by omega) rest
    simp only [List.append_assoc, List.cons_append]
    rw [readMembers?_name hfront, ← readValue?_skipBlanks, head.skipBlanks hmiddle, hread,
      Option.bind_some]
    simp only
    rw [skipBlanks_cons (by decide)]
    simp [hmore]

end

/-- A text that spells a value holds it. -/
theorem Spells.ofText? {value : Json} {text : String} (h : Spells value text.toList) :
    ofText? text = some value := by
  have hread := h.readValue? (2 * text.toList.length + 2) (by omega) [] endsNumber_nil
  rw [List.append_nil] at hread
  simp only [Json.ofText?, hread]
  rfl

/-! ### Both layouts spell their value -/

mutual

/-- Whether no part of a value is garbled or a number kept as a text. -/
def isWhole : Json → Bool
  | number _ => false
  | garbled => false
  | array elements => areWhole elements
  | object members => membersAreWhole members
  | _ => true

/-- Whether all elements of an array are whole. -/
def areWhole : List Json → Bool
  | [] => true
  | value :: rest => isWhole value && areWhole rest

/-- Whether the values of all members of an object are whole. -/
def membersAreWhole : List (String × Json) → Bool
  | [] => true
  | (_, value) :: rest => isWhole value && membersAreWhole rest

end

@[simp] theorem areWhole_map {α : Type} (make : α → Json) (list : List α) :
    areWhole (list.map make) = list.all fun a => isWhole (make a) := by
  induction list with
  | nil => rfl
  | cons a list ih => rw [List.map_cons, areWhole, ih, List.all_cons]

@[simp] theorem membersAreWhole_map {α : Type} (make : α → String × Json) (list : List α) :
    membersAreWhole (list.map make) = list.all fun a => isWhole (make a).2 := by
  induction list with
  | nil => rfl
  | cons a list ih => rw [List.map_cons, membersAreWhole, ih, List.all_cons]

/-- A text that spells a value behind a gap. -/
private def SpellsPiece (value : Json) (text : String) : Prop :=
  ∃ front s, IsGap front ∧ Spells value s ∧ text.toList = front ++ s

private def SpellsMember (member : String × Json) (text : String) : Prop :=
  ∃ front middle s, IsGap front ∧ IsGap middle ∧ Spells member.2 s ∧
    text.toList
      = front ++ '"' :: member.1.toList.flatMap escapeChar ++ '"' :: ':' :: middle ++ s

private theorem spellsElements_intercalate {values : List Json} {texts : List String}
    (h : List.Forall₂ SpellsPiece values texts) (hne : values ≠ []) {back : List Char}
    (hback : IsGap back) : SpellsElements values ((",".intercalate texts).toList ++ back) := by
  induction h with
  | nil => exact absurd rfl hne
  | @cons value text values texts hpiece hrest ih =>
    obtain ⟨front, s, hfront, hs, htext⟩ := hpiece
    cases hrest with
    | nil =>
      rw [String.intercalate_singleton, htext]
      exact .last hfront hs hback
    | cons hnext hmore =>
      have hinside := ih (List.cons_ne_nil _ _)
      rw [String.intercalate_cons_cons]
      simp only [String.toList_append, htext, List.append_assoc] at hinside ⊢
      rw [← List.append_assoc]
      exact .more hfront hs hinside

private theorem spellsMembers_intercalate {members : List (String × Json)} {texts : List String}
    (h : List.Forall₂ SpellsMember members texts) (hne : members ≠ []) {back : List Char}
    (hback : IsGap back) : SpellsMembers members ((",".intercalate texts).toList ++ back) := by
  induction h with
  | nil => exact absurd rfl hne
  | @cons member text members texts hpiece hrest ih =>
    obtain ⟨name, value⟩ := member
    obtain ⟨front, middle, s, hfront, hmiddle, hs, htext⟩ := hpiece
    cases hrest with
    | nil =>
      rw [String.intercalate_singleton, htext]
      exact .last hfront hmiddle hs hback
    | cons hnext hmore =>
      have hinside := ih (List.cons_ne_nil _ _)
      have hspell : SpellsMembers ((name, value) :: _) _ := .more hfront hmiddle hs hinside
      rw [String.intercalate_cons_cons]
      simpa [htext] using hspell

mutual

theorem spells_compact (value : Json) (h : isWhole value = true) :
    Spells value (compact value).toList := by
  match value with
  | null => exact .null
  | bool true => exact .yes
  | bool false => exact .no
  | natural n => simpa [compact, scalar] using Spells.natural n
  | string s => simpa [compact, scalar, toList_quote] using Spells.string s
  | array [] => exact .noElements
  | array (first :: rest) =>
    have hpieces := spells_compactElements (first :: rest) (by rwa [isWhole] at h)
    have hinside := spellsElements_intercalate hpieces (List.cons_ne_nil _ _) isGap_nil
    rw [List.append_nil] at hinside
    simpa [compact] using Spells.array hinside
  | object [] => exact .noMembers
  | object (first :: rest) =>
    have hpieces := spells_compactMembers (first :: rest) (by rwa [isWhole] at h)
    have hinside := spellsMembers_intercalate hpieces (List.cons_ne_nil _ _) isGap_nil
    rw [List.append_nil] at hinside
    simpa [compact] using Spells.object hinside

private theorem spells_compactElements (values : List Json) (h : areWhole values = true) :
    List.Forall₂ SpellsPiece values (compactElements values) := by
  match values with
  | [] => exact .nil
  | value :: rest =>
    rw [areWhole, Bool.and_eq_true] at h
    exact .cons ⟨[], _, isGap_nil, spells_compact value h.1, rfl⟩ (spells_compactElements rest h.2)

private theorem spells_compactMembers (members : List (String × Json))
    (h : membersAreWhole members = true) :
    List.Forall₂ SpellsMember members (compactMembers members) := by
  match members with
  | [] => exact .nil
  | (name, value) :: rest =>
    rw [membersAreWhole, Bool.and_eq_true] at h
    refine .cons ⟨[], [], _, isGap_nil, isGap_nil, spells_compact value h.1, ?_⟩
      (spells_compactMembers rest h.2)
    simp [toList_quote]

end

mutual

theorem spells_indented (level : Nat) (value : Json) (h : isWhole value = true) :
    Spells value (indented level value).toList := by
  match value with
  | null => simpa [indented, scalar] using Spells.null
  | bool true => simpa [indented, scalar] using Spells.yes
  | bool false => simpa [indented, scalar] using Spells.no
  | natural n => simpa [indented, scalar] using Spells.natural n
  | string s => simpa [indented, scalar, toList_quote] using Spells.string s
  | array [] => simpa [indented] using Spells.noElements
  | array (first :: rest) =>
    have hpieces := spells_indentedElements (level + 1) (first :: rest) (by rwa [isWhole] at h)
    have hinside := spellsElements_intercalate hpieces (List.cons_ne_nil _ _) (isGap_newLine level)
    simpa [indented] using Spells.array hinside
  | object [] => simpa [indented] using Spells.noMembers
  | object (first :: rest) =>
    have hpieces := spells_indentedMembers (level + 1) (first :: rest) (by rwa [isWhole] at h)
    have hinside := spellsMembers_intercalate hpieces (List.cons_ne_nil _ _) (isGap_newLine level)
    simpa [indented] using Spells.object hinside

private theorem spells_indentedElements (level : Nat) (values : List Json)
    (h : areWhole values = true) :
    List.Forall₂ SpellsPiece values (indentedElements level values) := by
  match values with
  | [] => exact .nil
  | value :: rest =>
    rw [areWhole, Bool.and_eq_true] at h
    refine .cons ⟨_, _, isGap_newLine level, spells_indented level value h.1, ?_⟩
      (spells_indentedElements level rest h.2)
    simp

private theorem spells_indentedMembers (level : Nat) (members : List (String × Json))
    (h : membersAreWhole members = true) :
    List.Forall₂ SpellsMember members (indentedMembers level members) := by
  match members with
  | [] => exact .nil
  | (name, value) :: rest =>
    rw [membersAreWhole, Bool.and_eq_true] at h
    have hmiddle : IsGap [' '] := by simp [IsGap]
    refine .cons ⟨_, [' '], _, isGap_newLine level, hmiddle, spells_indented level value h.1, ?_⟩
      (spells_indentedMembers level rest h.2)
    simp [toList_quote]

end

/-- What the compact layout writes is read back. -/
theorem ofText?_compact {value : Json} (h : isWhole value = true) :
    ofText? value.compact = some value :=
  (spells_compact value h).ofText?

/-- What the indented layout writes is read back. -/
theorem ofText?_indented {value : Json} (h : isWhole value = true) (level : Nat) :
    ofText? (value.indented level) = some value :=
  (spells_indented level value h).ofText?

end Json

end FlatFileDb
