import FlatFileDb.Proofs.Words
import FlatFileDb.Proofs.Schema

/-!
# Columns in print

A column is printed as its name, its type and its constraints, with colons between them. The type may
have any of its names, and a constraint any of its spellings, in any case; the constraints stand in any
order, and those that a primary key brings along may be left out. Columns are printed with commas between
them. Commas stand among the arguments of a type too, so a definition is cut at the commas outside of
parentheses before anything in it is read.
-/

namespace FlatFileDb

/-- The written form of a reference. -/
def Reference.written (target : Reference) : List Char :=
  target.table.toList ++ '.' :: target.column.toList

namespace DataType

/-- The names of a type in capitals. -/
def names : DataType → List String
  | int => ["INT", "INTEGER"]
  | float => ["FLOAT", "DOUBLE"]
  | string => ["STRING", "VARCHAR"]
  | text => ["TEXT"]
  | bool => ["BOOL", "BOOLEAN"]
  | date => ["DATE"]
  | char _ => ["CHAR"]
  | enum _ => ["ENUM"]

/-- The arguments of a type as they are written. -/
def arguments : DataType → List String
  | char length => [String.ofList (Number.decimalDigits length)]
  | enum variants => variants
  | _ => []

/-- Whether a text may be written as a variant. -/
structure IsVariant (variant : String) : Prop where
  ne_nil : variant.toList ≠ []
  trimmed : Text.trim variant.toList = variant.toList
  chars : ∀ c ∈ variant.toList, c ≠ ',' ∧ c ≠ '(' ∧ c ≠ ')' ∧ isQuote c = false

/-- Whether a type can be written: a length fits into 64 bits, and variants can be told apart. -/
def IsPrintable : DataType → Prop
  | char length => length < 2 ^ 64
  | enum variants => variants ≠ [] ∧ ∀ variant ∈ variants, IsVariant variant
  | _ => True

end DataType

/-- Whether a column can be written. -/
structure Column.IsPrintable (column : Column) : Prop where
  name : Name.isValid column.name = true
  type : column.type.IsPrintable
  key : column.primaryKey = true → column.unique = true ∧ column.notNull = true
  reference : ∀ target, column.reference = some target →
    Name.isValid target.table = true ∧ Name.isValid target.column = true

/-- Whether constraints are those of a column, in any order. A primary key brings two others along. -/
structure Column.IsConstrainedBy (column : Column) (constraints : List Constraint) : Prop where
  primaryKey : .primaryKey ∈ constraints ↔ column.primaryKey = true
  unique : .unique ∈ constraints ∨ .primaryKey ∈ constraints ↔ column.unique = true
  notNull : .notNull ∈ constraints ∨ .primaryKey ∈ constraints ↔ column.notNull = true
  references : ∀ target, .references target ∈ constraints ↔ column.reference = some target

namespace Definition

/-! ### How columns are printed -/

/-- Whether a text is a word in any case. -/
def IsWord (word : String) (s : List Char) : Prop :=
  Text.equalsIgnoringAsciiCase s word.toList = true

/-- Whether a word is made of characters of names. -/
def IsNameWord (word : String) : Prop :=
  word.toList ≠ [] ∧ word.toList.all Text.isNameChar = true

instance (word : String) : Decidable (IsNameWord word) :=
  inferInstanceAs (Decidable (_ ∧ _))

/-- Whether a text consists of blanks as they may stand between the parts of an item. -/
def IsGap (s : List Char) : Prop :=
  ∀ c ∈ s, isGap c = true

/-- Words with blanks between each two. -/
inductive PrintsWords : List String → List Char → Prop
  | last {word : String} {s : List Char} (h : IsWord word s) : PrintsWords [word] s
  | more {word : String} {words : List String} {s gap rest : List Char} (h : IsWord word s)
      (hgap : IsGap gap) (hne : gap ≠ []) (hrest : PrintsWords words rest) :
      PrintsWords (word :: words) (s ++ (gap ++ rest))

inductive PrintsConstraint : Constraint → List Char → Prop
  | primaryKey {words : List String} {s : List Char}
      (hwords : words ∈ [["PRIMARY_KEY"], ["PRIMARY", "KEY"], ["PK"]]) (h : PrintsWords words s) :
      PrintsConstraint .primaryKey s
  | unique {s : List Char} (h : IsWord "UNIQUE" s) : PrintsConstraint .unique s
  | notNull {words : List String} {s : List Char} (hwords : words ∈ [["NOT_NULL"], ["NOT", "NULL"]])
      (h : PrintsWords words s) : PrintsConstraint .notNull s
  | references {words : List String} {s gap : List Char} {target : Reference}
      (hwords : words ∈ [["FOREIGN", "KEY"], ["REF"]]) (h : PrintsWords words s) (hgap : IsGap gap)
      (hne : gap ≠ []) : PrintsConstraint (.references target) (s ++ (gap ++ target.written))
  | parenthesized {s : List Char} {target : Reference} (h : IsWord "FK" s) :
      PrintsConstraint (.references target) (s ++ '(' :: (target.written ++ [')']))

/-- Constraints, each behind a colon that may have blanks around it. -/
inductive PrintsConstraints : List Constraint → List Char → Prop
  | nothing : PrintsConstraints [] []
  | more {constraint : Constraint} {constraints : List Constraint} {before after s rest : List Char}
      (hbefore : IsGap before) (hafter : IsGap after) (h : PrintsConstraint constraint s)
      (hrest : PrintsConstraints constraints rest) :
      PrintsConstraints (constraint :: constraints) (before ++ ':' :: (after ++ (s ++ rest)))

/-- The arguments of a type in parentheses, with any white space around each; nothing at all if there
are none. -/
inductive PrintsArguments : List String → List Char → Prop
  | nothing : PrintsArguments [] []
  | listed {arguments : List String} {pieces : List (List Char)} (hne : arguments ≠ [])
      (h : List.Forall₂ (fun argument => Text.IsPadded argument.toList) arguments pieces) :
      PrintsArguments arguments ('(' :: ([','].intercalate pieces ++ [')']))

inductive PrintsType (type : DataType) : List Char → Prop
  | named {name : String} {s arguments : List Char} (hname : name ∈ type.names) (h : IsWord name s)
      (harguments : PrintsArguments type.arguments arguments) : PrintsType type (s ++ arguments)

inductive PrintsColumn (column : Column) : List Char → Prop
  | item {before after type s : List Char} {constraints : List Constraint} (hbefore : IsGap before)
      (hafter : IsGap after) (htype : PrintsType column.type type)
      (hconstraints : column.IsConstrainedBy constraints) (h : PrintsConstraints constraints s) :
      PrintsColumn column (column.name.toList ++ (before ++ ':' :: (after ++ (type ++ s))))

/-- Columns with commas between each two and any white space around each. -/
inductive PrintsColumns (columns : List Column) : List Char → Prop
  | items {items pieces : List (List Char)} (h : List.Forall₂ PrintsColumn columns items)
      (hpieces : List.Forall₂ Text.IsPadded items pieces) :
      PrintsColumns columns ([','].intercalate pieces)

end Definition

/-! ### Letters in any case -/

namespace Text

variable {c d : Char}

theorem toNat_toLower (c : Char) :
    c.toLower.toNat = if 65 ≤ c.toNat ∧ c.toNat ≤ 90 then c.toNat + 32 else c.toNat := by
  have hiff : (c.val ≥ 'A'.val ∧ c.val ≤ 'Z'.val) ↔ 65 ≤ c.toNat ∧ c.toNat ≤ 90 := by
    rw [ge_iff_le, UInt32.le_iff_toNat_le, UInt32.le_iff_toNat_le]
    rfl
  unfold Char.toLower
  by_cases h : c.val ≥ 'A'.val ∧ c.val ≤ 'Z'.val
  · have hletter := hiff.1 h
    rw [dif_pos h, if_pos hletter]
    change (c.toNat + 32) % 2 ^ 32 = c.toNat + 32
    omega
  · rw [dif_neg h, if_neg (fun hletter => h (hiff.2 hletter))]

theorem toNat_toUpper (c : Char) :
    c.toUpper.toNat = if 97 ≤ c.toNat ∧ c.toNat ≤ 122 then c.toNat - 32 else c.toNat := by
  have hiff : ('a'.val ≤ c.val ∧ c.val ≤ 'z'.val) ↔ 97 ≤ c.toNat ∧ c.toNat ≤ 122 := by
    rw [UInt32.le_iff_toNat_le, UInt32.le_iff_toNat_le]
    rfl
  unfold Char.toUpper
  by_cases h : 'a'.val ≤ c.val ∧ c.val ≤ 'z'.val
  · have hletter := hiff.1 h
    rw [dif_pos h, if_pos hletter]
    have hshift : ('A'.val - 'a'.val).toNat = 4294967264 := by decide
    change (c.val + ('A'.val - 'a'.val)).toNat = c.toNat - 32
    rw [UInt32.toNat_add, hshift, Char.toNat_val]
    omega
  · rw [dif_neg h, if_neg (fun hletter => h (hiff.2 hletter))]

theorem isAlpha_iff :
    c.isAlpha = true ↔ (65 ≤ c.toNat ∧ c.toNat ≤ 90) ∨ (97 ≤ c.toNat ∧ c.toNat ≤ 122) := by
  unfold Char.isAlpha Char.isUpper Char.isLower
  simp [UInt32.le_iff_toNat_le]

/-- Two characters that differ in case alone are the same, or letters. -/
theorem eq_or_isAlpha (h : c.toLower = d.toLower) :
    c = d ∨ c.isAlpha = true ∧ d.isAlpha = true ∧ c.toUpper = d.toUpper := by
  have hlower := congrArg Char.toNat h
  rw [toNat_toLower, toNat_toLower] at hlower
  rw [isAlpha_iff, isAlpha_iff, ← Char.toNat_inj, ← Char.toNat_inj, toNat_toUpper, toNat_toUpper]
  split_ifs at hlower ⊢
  all_goals omega

theorem toNat_lt_of_isAlpha (h : c.isAlpha = true) : c.toNat < 128 := by
  rw [isAlpha_iff] at h
  omega

theorem lowerChar_congr (h : c.toLower = d.toLower) : lowerChar c = lowerChar d := by
  rcases eq_or_isAlpha h with rfl | ⟨hc, hd, -⟩
  · rfl
  · rw [lowerChar, lowerChar, if_pos (toNat_lt_of_isAlpha hc), if_pos (toNat_lt_of_isAlpha hd), h]

theorem upperChar_congr (h : c.toLower = d.toLower) : upperChar c = upperChar d := by
  rcases eq_or_isAlpha h with rfl | ⟨hc, hd, hupper⟩
  · rfl
  · rw [upperChar, upperChar, if_pos (toNat_lt_of_isAlpha hc), if_pos (toNat_lt_of_isAlpha hd), hupper]

theorem utf8Size_congr (h : c.toLower = d.toLower) : c.utf8Size = d.utf8Size := by
  have hone {c : Char} (hc : c.isAlpha = true) : c.utf8Size = 1 := by
    have hlow : c.val ≤ 0x7f := UInt32.le_iff_toNat_le.2 (Nat.le_of_lt_succ (toNat_lt_of_isAlpha hc))
    exact if_pos hlow
  rcases eq_or_isAlpha h with rfl | ⟨hc, hd, -⟩
  · rfl
  · rw [hone hc, hone hd]

theorem isNameChar_congr (h : c.toLower = d.toLower) : isNameChar c = isNameChar d := by
  rcases eq_or_isAlpha h with rfl | ⟨hc, hd, -⟩
  · rfl
  · rw [isNameChar, isNameChar, Char.isAlphanum, Char.isAlphanum, hc, hd]
    rfl

end Text

namespace Definition

theorem exists_of_forall₂ {α β : Type} {R : α → β → Prop} {as : List α} {bs : List β}
    (h : List.Forall₂ R as bs) {b : β} (hb : b ∈ bs) : ∃ a ∈ as, R a b := by
  induction h with
  | nil => exact absurd hb List.not_mem_nil
  | cons hfirst hrest ih =>
    rcases List.mem_cons.1 hb with rfl | hb
    · exact ⟨_, List.mem_cons_self, hfirst⟩
    · obtain ⟨a, ha, hR⟩ := ih hb
      exact ⟨a, List.mem_cons_of_mem _ ha, hR⟩

theorem mem_intercalate {pieces : List (List Char)} {c separator : Char}
    (h : c ∈ [separator].intercalate pieces) : c = separator ∨ ∃ piece ∈ pieces, c ∈ piece := by
  induction pieces with
  | nil => exact absurd h (by simp)
  | cons piece pieces ih =>
    cases pieces with
    | nil =>
      rw [List.intercalate_singleton] at h
      exact .inr ⟨piece, List.mem_cons_self, h⟩
    | cons next rest =>
      rw [List.intercalate_cons_cons, List.mem_append, List.mem_append, List.mem_singleton] at h
      rcases h with (h | h) | h
      · exact .inr ⟨piece, List.mem_cons_self, h⟩
      · exact .inl h
      · exact (ih h).imp_right fun ⟨other, hmem, hc⟩ => ⟨other, List.mem_cons_of_mem piece hmem, hc⟩

variable {word other : String} {words : List String} {s gap rest : List Char}

/-- Whatever does not depend on the case of its letters is the same of a word in any case. -/
theorem IsWord.map_congr {β : Type} (h : IsWord word s) {f : Char → β}
    (hf : ∀ c d : Char, c.toLower = d.toLower → f c = f d) : s.map f = word.toList.map f := by
  have hmap : s.map Char.toLower = word.toList.map Char.toLower := beq_iff_eq.1 h
  have hlength : s.length = word.toList.length := by
    rw [← List.length_map Char.toLower, hmap, List.length_map]
  refine List.ext_getElem (by simpa using hlength) fun i hi hi' => ?_
  rw [List.getElem_map, List.getElem_map]
  refine hf _ _ ?_
  have hget := congrArg (fun chars => chars[i]?) hmap
  rw [List.length_map] at hi hi'
  simpa [hi, hi'] using hget

theorem IsWord.isNameChar (h : IsWord word s) (hword : word.toList.all Text.isNameChar = true) :
    ∀ c ∈ s, Text.isNameChar c = true := by
  have hmap := h.map_congr fun _ _ => Text.isNameChar_congr
  intro c hc
  have hmem : Text.isNameChar c ∈ word.toList.map Text.isNameChar :=
    hmap ▸ List.mem_map_of_mem hc
  obtain ⟨d, hd, hsame⟩ := List.mem_map.1 hmem
  exact hsame ▸ List.all_eq_true.1 hword d hd

theorem IsWord.ne_nil (h : IsWord word s) (hword : word.toList ≠ []) : s ≠ [] := by
  rintro rfl
  exact hword (List.map_eq_nil_iff.1 (h.map_congr (f := fun _ => ()) fun _ _ _ => rfl).symm)

theorem isWord_self (word : String) : IsWord word word.toList :=
  beq_self_eq_true _

/-! ### Blanks and words -/

theorem isNameChar_of_isGap {c : Char} (h : isGap c = true) : Text.isNameChar c = false := by
  simp only [isGap, Bool.or_eq_true, beq_iff_eq] at h
  rcases h with ((rfl | rfl) | rfl) | rfl <;> decide

/-- Whether a text that follows a name does not go on with it. -/
def EndsName : List Char → Prop
  | [] => True
  | c :: _ => Text.isNameChar c = false

theorem endsName_cons {c : Char} (h : Text.isNameChar c = false) (rest : List Char) :
    EndsName (c :: rest) :=
  h

/-- Whether a text starts with a character of a name. -/
def StartsName : List Char → Prop
  | [] => False
  | c :: _ => Text.isNameChar c = true

theorem startsName_append (hne : s ≠ []) (h : ∀ c ∈ s, Text.isNameChar c = true)
    (rest : List Char) : StartsName (s ++ rest) := by
  obtain ⟨c, behind, rfl⟩ := List.exists_cons_of_ne_nil hne
  exact h c List.mem_cons_self

theorem skipGap_append (hgap : IsGap gap) {c : Char} (hc : isGap c = false) (rest : List Char) :
    skipGap (gap ++ c :: rest) = c :: rest := by
  rw [skipGap, List.dropWhile_append, List.dropWhile_eq_nil_iff.2 hgap, List.isEmpty_nil, if_pos rfl,
    List.dropWhile_cons_of_neg (by simp [hc])]

theorem skipGap_of_startsName (hgap : IsGap gap) (hs : StartsName s) : skipGap (gap ++ s) = s := by
  cases s with
  | nil => exact absurd hs id
  | cons c rest =>
    refine skipGap_append hgap ?_ rest
    rw [← Bool.not_eq_true]
    intro hblank
    have hname : Text.isNameChar c = true := hs
    rw [isNameChar_of_isGap hblank] at hname
    exact absurd hname (by simp)

theorem skipSomeGap?_of_startsName (hgap : IsGap gap) (hne : gap ≠ []) (hs : StartsName s) :
    skipSomeGap? (gap ++ s) = some s := by
  obtain ⟨c, behind, rfl⟩ := List.exists_cons_of_ne_nil hne
  rw [List.cons_append, skipSomeGap?, if_pos (hgap c List.mem_cons_self),
    skipGap_of_startsName (fun d hd => hgap d (List.mem_cons_of_mem c hd)) hs]

theorem name?_append (hne : s ≠ []) (h : ∀ c ∈ s, Text.isNameChar c = true)
    (hrest : EndsName rest) : name? (s ++ rest) = some (String.ofList s, rest) := by
  have htaken : rest.takeWhile Text.isNameChar = [] ∧ rest.dropWhile Text.isNameChar = rest := by
    cases rest with
    | nil => exact ⟨rfl, rfl⟩
    | cons c behind =>
      have hc : Text.isNameChar c = false := hrest
      exact ⟨List.takeWhile_cons_of_neg (by simp [hc]), List.dropWhile_cons_of_neg (by simp [hc])⟩
  rw [name?, List.takeWhile_append_of_pos h, List.dropWhile_append_of_pos h, htaken.1, htaken.2,
    List.append_nil]
  exact if_neg (by simpa using hne)

/-- Whether two texts agree is seen from their letters in small form. -/
theorem agree_eq (s t : List Char) :
    agree s t = ((s.map Text.lowerChar).zip (t.map Text.lowerChar)).all fun (c, d) => c == d := by
  rw [agree, List.zip_map, List.all_map]
  rfl

theorem agree_append (s rest : List Char) : agree (s ++ rest) s = true := by
  induction s with
  | nil => cases rest <;> rfl
  | cons c s ih =>
    rw [agree] at ih
    rw [List.cons_append, agree, List.zip_cons_cons, List.all_cons, ih, Bool.and_true]
    exact beq_self_eq_true (Text.lowerChar c)

theorem IsWord.agree (h : IsWord word s) (rest t : List Char) :
    Definition.agree (s ++ rest) t = Definition.agree (word.toList ++ rest) t := by
  rw [agree_eq, agree_eq, List.map_append, List.map_append,
    h.map_congr fun _ _ => Text.lowerChar_congr]

theorem keyword?_of_isWord (h : IsWord word s) (rest : List Char) :
    keyword? word (s ++ rest) = some rest := by
  have hbytes : Text.byteCount word.toList = Text.byteCount s := by
    rw [Text.byteCount, Text.byteCount, h.map_congr fun _ _ => Text.utf8Size_congr]
  rw [keyword?, h.agree, agree_append, if_pos rfl, hbytes, Text.dropBytes?_byteCount]

theorem keyword?_of_other (h : IsWord other s) {rest : List Char}
    (hdiffers : agree (other.toList ++ rest) word.toList = false) :
    keyword? word (s ++ rest) = none := by
  rw [keyword?, h.agree, hdiffers]
  rfl

theorem twoWords?_of_other (h : IsWord other s) {rest : List Char} {second : String}
    (hdiffers : agree (other.toList ++ rest) word.toList = false) :
    twoWords? word second (s ++ rest) = none := by
  rw [twoWords?, keyword?_of_other h hdiffers]
  rfl

theorem twoWords?_of_prints {second : String} (h : PrintsWords [word, second] s)
    (hword : IsNameWord second) (rest : List Char) :
    twoWords? word second (s ++ rest) = some rest := by
  cases h with
  | @more _ _ first gap last hfirst hgap hne hrest =>
    cases hrest with
    | more _ _ _ hno => cases hno
    | last hlast =>
      have hstarts : StartsName (last ++ rest) :=
        startsName_append (hlast.ne_nil hword.1) (hlast.isNameChar hword.2) rest
      rw [twoWords?, List.append_assoc, List.append_assoc, keyword?_of_isWord hfirst]
      change (do keyword? second (← skipSomeGap? (gap ++ (last ++ rest)))) = some rest
      rw [skipSomeGap?_of_startsName hgap hne hstarts]
      exact keyword?_of_isWord hlast rest

/-! ### Constraints -/

variable {target : Reference} {constraint : Constraint} {constraints : List Constraint}

/-- Whether the names in a reference are valid. -/
def IsNamed (target : Reference) : Prop :=
  Name.isValid target.table = true ∧ Name.isValid target.column = true

theorem startsName_name {name : String} (h : Name.isValid name = true) (rest : List Char) :
    StartsName (name.toList ++ rest) :=
  startsName_append (Name.toList_ne_nil h) (fun _ hc => Name.isNameChar_of_mem h hc) rest

theorem reference?_written (h : IsNamed target) (hrest : EndsName rest) :
    reference? (target.written ++ rest) = some (target, rest) := by
  have htable := name?_append (Name.toList_ne_nil h.1) (fun _ hc => Name.isNameChar_of_mem h.1 hc)
    (endsName_cons (by decide : Text.isNameChar '.' = false) (target.column.toList ++ rest))
  have hcolumn := name?_append (Name.toList_ne_nil h.2) (fun _ hc => Name.isNameChar_of_mem h.2 hc)
    hrest
  rw [String.ofList_toList] at htable hcolumn
  rw [reference?, Reference.written, List.append_assoc, List.cons_append, htable]
  change (do
    let found ← name? (target.column.toList ++ rest)
    return ((⟨target.table, found.1⟩ : Reference), found.2)) = _
  rw [hcolumn]
  rfl

/-- Words in print start with the first of them. -/
theorem PrintsWords.exists_append (h : PrintsWords (word :: words) s) :
    ∃ first behind, IsWord word first ∧ s = first ++ behind := by
  cases h with
  | last h => exact ⟨s, [], h, (List.append_nil s).symm⟩
  | more h => exact ⟨_, _, h, rfl⟩

/-- The blank behind a word is no underscore. -/
theorem keyword?_of_gap {first : String} {long : String} (h : PrintsWords (first :: other :: words) s)
    (rest : List Char)
    (hdiffers : ∀ c, isGap c = true → ∀ rest, agree (first.toList ++ c :: rest) long.toList = false) :
    keyword? long (s ++ rest) = none := by
  cases h with
  | @more _ _ head gap last hfirst hgap hne hrest =>
    obtain ⟨c, behind, rfl⟩ := List.exists_cons_of_ne_nil hne
    rw [List.append_assoc]
    exact keyword?_of_other hfirst (hdiffers c (hgap c List.mem_cons_self) _)

theorem forall_isGap {P : Char → Prop} (h : P ' ' ∧ P '\t' ∧ P '\r' ∧ P '\n') :
    ∀ c, isGap c = true → P c := by
  intro c hc
  simp only [isGap, Bool.or_eq_true, beq_iff_eq] at hc
  rcases hc with ((rfl | rfl) | rfl) | rfl
  exacts [h.1, h.2.1, h.2.2.1, h.2.2.2]

theorem primaryKey?_of_prints (h : PrintsWords words s)
    (hwords : words ∈ [["PRIMARY_KEY"], ["PRIMARY", "KEY"], ["PK"]]) (rest : List Char) :
    primaryKey? (s ++ rest) = some rest := by
  simp only [List.mem_cons, List.not_mem_nil, or_false] at hwords
  rcases hwords with rfl | rfl | rfl
  · cases h with
    | more _ _ _ hno => cases hno
    | last h => rw [primaryKey?, keyword?_of_isWord h]; rfl
  · have hlong : keyword? "PRIMARY_KEY" (s ++ rest) = none :=
      keyword?_of_gap h rest (forall_isGap ⟨fun _ => rfl, fun _ => rfl, fun _ => rfl, fun _ => rfl⟩)
    rw [primaryKey?, hlong, twoWords?_of_prints h (by decide)]
    rfl
  · cases h with
    | more _ _ _ hno => cases hno
    | last h =>
      rw [primaryKey?, keyword?_of_other h rfl, twoWords?_of_other h rfl, keyword?_of_isWord h]
      rfl

theorem notNull?_of_prints (h : PrintsWords words s)
    (hwords : words ∈ [["NOT_NULL"], ["NOT", "NULL"]]) (rest : List Char) :
    notNull? (s ++ rest) = some rest := by
  simp only [List.mem_cons, List.not_mem_nil, or_false] at hwords
  rcases hwords with rfl | rfl
  · cases h with
    | more _ _ _ hno => cases hno
    | last h => rw [notNull?, keyword?_of_isWord h]; rfl
  · have hlong : keyword? "NOT_NULL" (s ++ rest) = none :=
      keyword?_of_gap h rest (forall_isGap ⟨fun _ => rfl, fun _ => rfl, fun _ => rfl, fun _ => rfl⟩)
    rw [notNull?, hlong, twoWords?_of_prints h (by decide)]
    rfl

/-- The flags of a column are not read out of what starts with another word. -/
theorem constraint?_of_other (h : IsWord other s) {rest : List Char}
    (hprimary : agree (other.toList ++ rest) "PRIMARY_KEY".toList = false ∧
      agree (other.toList ++ rest) "PRIMARY".toList = false ∧
      agree (other.toList ++ rest) "PK".toList = false)
    (hunique : agree (other.toList ++ rest) "UNIQUE".toList = false)
    (hnot : agree (other.toList ++ rest) "NOT_NULL".toList = false ∧
      agree (other.toList ++ rest) "NOT".toList = false) :
    constraint? (s ++ rest)
      = (foreignKey? (s ++ rest)).map fun (target, rest) => (.references target, rest) := by
  rw [constraint?, primaryKey?, notNull?, keyword?_of_other h hprimary.1,
    twoWords?_of_other h hprimary.2.1, keyword?_of_other h hprimary.2.2, keyword?_of_other h hunique,
    keyword?_of_other h hnot.1, twoWords?_of_other h hnot.2]
  rfl

theorem foreignKey?_of_prints (h : PrintsWords words s) (hwords : words ∈ [["FOREIGN", "KEY"], ["REF"]])
    (hgap : IsGap gap) (hne : gap ≠ []) (htarget : IsNamed target) (hrest : EndsName rest) :
    foreignKey? (s ++ (gap ++ (target.written ++ rest))) = some (target, rest) := by
  have hstarts : StartsName (target.written ++ rest) := by
    rw [Reference.written, List.append_assoc]
    exact startsName_name htarget.1 _
  have hbehind : (do reference? (← skipSomeGap? (gap ++ (target.written ++ rest))))
      = some (target, rest) := by
    rw [skipSomeGap?_of_startsName hgap hne hstarts]
    exact reference?_written htarget hrest
  simp only [List.mem_cons, List.not_mem_nil, or_false] at hwords
  rcases hwords with rfl | rfl
  · obtain ⟨first, behind, hfirst, hs⟩ := h.exists_append
    have hparenthesized : parenthesized? (s ++ (gap ++ (target.written ++ rest))) = none := by
      rw [hs, List.append_assoc, parenthesized?, keyword?_of_other hfirst rfl]
      rfl
    rw [foreignKey?, hparenthesized, twoWords?_of_prints h (by decide)]
    change ((do reference? (← skipSomeGap? (gap ++ (target.written ++ rest)))) <|> _) = _
    rw [hbehind]
    rfl
  · cases h with
    | more _ _ _ hno => cases hno
    | last h =>
      rw [foreignKey?, parenthesized?, keyword?_of_other h rfl, twoWords?_of_other h rfl,
        keyword?_of_isWord h]
      exact hbehind

theorem parenthesized?_of_prints (h : IsWord "FK" s) (htarget : IsNamed target) (rest : List Char) :
    foreignKey? (s ++ '(' :: (target.written ++ ')' :: rest)) = some (target, rest) := by
  have hparenthesized :
      parenthesized? (s ++ '(' :: (target.written ++ ')' :: rest)) = some (target, rest) := by
    rw [parenthesized?, keyword?_of_isWord h]
    change (do
      let found ← reference? (target.written ++ ')' :: rest)
      return (found.1, ← symbol? ')' found.2)) = _
    rw [reference?_written htarget (endsName_cons (by decide) rest)]
    rfl
  rw [foreignKey?, hparenthesized]
  rfl

/-- A printed constraint is read up to what follows it. -/
theorem constraint?_of_prints (h : PrintsConstraint constraint s)
    (htarget : ∀ target, constraint = .references target → IsNamed target) (hrest : EndsName rest) :
    constraint? (s ++ rest) = some (constraint, rest) := by
  cases h with
  | primaryKey hwords h =>
    rw [constraint?, primaryKey?_of_prints h hwords]
    rfl
  | unique h =>
    rw [constraint?, primaryKey?, keyword?_of_other h rfl, twoWords?_of_other h rfl,
      keyword?_of_other h rfl, keyword?_of_isWord h]
    rfl
  | notNull hwords h =>
    have hread := notNull?_of_prints h hwords rest
    obtain ⟨first, behind, hfirst, hs⟩ : ∃ first behind, (IsWord "NOT_NULL" first ∨ IsWord "NOT" first) ∧
        s = first ++ behind := by
      simp only [List.mem_cons, List.not_mem_nil, or_false] at hwords
      rcases hwords with rfl | rfl
      · obtain ⟨first, behind, hfirst, hs⟩ := h.exists_append
        exact ⟨first, behind, .inl hfirst, hs⟩
      · obtain ⟨first, behind, hfirst, hs⟩ := h.exists_append
        exact ⟨first, behind, .inr hfirst, hs⟩
    rw [constraint?, hread, hs, List.append_assoc, primaryKey?]
    rcases hfirst with hfirst | hfirst
    all_goals
      rw [keyword?_of_other hfirst rfl, twoWords?_of_other hfirst rfl, keyword?_of_other hfirst rfl,
        keyword?_of_other hfirst rfl]
      rfl
  | @references words s gap target hwords h hgap hne =>
    have hread := foreignKey?_of_prints h hwords hgap hne (htarget target rfl) hrest
    simp only [List.mem_cons, List.not_mem_nil, or_false] at hwords
    rw [List.append_assoc, List.append_assoc]
    rcases hwords with rfl | rfl
    all_goals
      obtain ⟨first, behind, hfirst, rfl⟩ := h.exists_append
      rw [List.append_assoc] at hread ⊢
      rw [constraint?_of_other hfirst ⟨rfl, rfl, rfl⟩ rfl ⟨rfl, rfl⟩, hread]
      rfl
  | @parenthesized s target h =>
    have hread := parenthesized?_of_prints h (htarget target rfl) rest
    rw [List.append_assoc, List.cons_append, List.append_assoc, List.singleton_append,
      constraint?_of_other h ⟨rfl, rfl, rfl⟩ rfl ⟨rfl, rfl⟩, hread]
    rfl

theorem isNameWord_primaryKey :
    ∀ words ∈ [["PRIMARY_KEY"], ["PRIMARY", "KEY"], ["PK"]], ∀ word ∈ words, IsNameWord word := by
  decide

theorem isNameWord_notNull :
    ∀ words ∈ [["NOT_NULL"], ["NOT", "NULL"]], ∀ word ∈ words, IsNameWord word := by
  decide

theorem isNameWord_foreignKey :
    ∀ words ∈ [["FOREIGN", "KEY"], ["REF"]], ∀ word ∈ words, IsNameWord word := by
  decide

theorem PrintsWords.startsName (h : PrintsWords words s)
    (hwords : ∀ word ∈ words, IsNameWord word) (rest : List Char) : StartsName (s ++ rest) := by
  obtain ⟨word, more, rfl⟩ : ∃ word more, words = word :: more := by
    cases h <;> exact ⟨_, _, rfl⟩
  obtain ⟨first, behind, hfirst, rfl⟩ := h.exists_append
  obtain ⟨hne, hname⟩ := hwords word List.mem_cons_self
  rw [List.append_assoc]
  exact startsName_append (hfirst.ne_nil hne) (hfirst.isNameChar hname) _

theorem PrintsConstraint.startsName (h : PrintsConstraint constraint s) (rest : List Char) :
    StartsName (s ++ rest) := by
  have hword {word : String} {s : List Char} (h : IsWord word s) (hname : IsNameWord word)
      (rest : List Char) : StartsName (s ++ rest) :=
    startsName_append (h.ne_nil hname.1) (h.isNameChar hname.2) rest
  cases h with
  | primaryKey hwords h => exact h.startsName (isNameWord_primaryKey _ hwords) rest
  | unique h => exact hword h (by decide) rest
  | notNull hwords h => exact h.startsName (isNameWord_notNull _ hwords) rest
  | references hwords h =>
    rw [List.append_assoc]
    exact h.startsName (isNameWord_foreignKey _ hwords) _
  | parenthesized h =>
    rw [List.append_assoc]
    exact hword h (by decide) _

theorem isGap_nil : IsGap [] :=
  fun _ hc => absurd hc List.not_mem_nil

theorem endsName_gap (hgap : IsGap gap) (rest : List Char) : EndsName (gap ++ ':' :: rest) := by
  cases gap with
  | nil => exact endsName_cons (by decide) rest
  | cons c gap => exact isNameChar_of_isGap (hgap c List.mem_cons_self)

theorem PrintsConstraints.endsName (h : PrintsConstraints constraints s) : EndsName s := by
  cases h with
  | nothing => trivial
  | more hbefore => exact endsName_gap hbefore _

theorem PrintsConstraints.head?_ne (h : PrintsConstraints constraints s) : s.head? ≠ some '(' := by
  cases h with
  | nothing => simp
  | @more _ _ before after s rest hbefore hafter =>
    cases before with
    | nil => simp
    | cons c before =>
      intro hopen
      obtain rfl := Option.some.inj hopen
      exact absurd (hbefore '(' List.mem_cons_self) (by decide)

theorem PrintsConstraints.length_le (h : PrintsConstraints constraints s) :
    constraints.length ≤ s.length := by
  induction h with
  | nothing => exact Nat.le_refl 0
  | more _ _ _ _ ih =>
    simp only [List.length_cons, List.length_append]
    omega

theorem constraints_of_prints (h : PrintsConstraints constraints s)
    (htargets : ∀ target, .references target ∈ constraints → IsNamed target) {fuel : Nat}
    (hfuel : constraints.length ≤ fuel) : Definition.constraints fuel s = (constraints, []) := by
  induction h generalizing fuel with
  | nothing => cases fuel <;> rfl
  | @more constraint constraints before after s rest hbefore hafter h hrest ih =>
    obtain ⟨fuel, rfl⟩ : ∃ more, fuel = more + 1 :=
      Nat.exists_eq_add_one.2 (Nat.lt_of_lt_of_le (Nat.succ_pos _) hfuel)
    have hmore := ih (fun target htarget => htargets target (List.mem_cons_of_mem _ htarget))
      (Nat.le_of_succ_le_succ hfuel)
    have hread := constraint?_of_prints h
      (fun target htarget => htargets target (htarget ▸ List.mem_cons_self)) hrest.endsName
    have hcolon : skipGap (before ++ ':' :: (after ++ (s ++ rest))) = ':' :: (after ++ (s ++ rest)) :=
      skipGap_append hbefore (by decide) _
    have hfound : (do
        constraint? (skipGap (← symbol? ':' (skipGap (before ++ ':' :: (after ++ (s ++ rest)))))))
        = some (constraint, rest) := by
      rw [hcolon]
      change constraint? (skipGap (after ++ (s ++ rest))) = _
      rw [skipGap_of_startsName hafter (h.startsName rest), hread]
    rw [Definition.constraints, hfound]
    dsimp only
    rw [hmore]

/-! ### Types -/

theorem PrintsArguments.endsName {arguments : List String} (h : PrintsArguments arguments s)
    (hrest : EndsName rest) : EndsName (s ++ rest) := by
  cases h with
  | nothing => exact hrest
  | listed => exact endsName_cons (by decide) _

theorem arguments?_of_prints {arguments : List String} (h : PrintsArguments arguments s)
    (htrimmed : ∀ argument ∈ arguments, argument.toList ≠ [] ∧
      Text.trim argument.toList = argument.toList ∧ ',' ∉ argument.toList ∧ ')' ∉ argument.toList)
    (hrest : rest.head? ≠ some '(') :
    (arguments? (s ++ rest)).getD ([], s ++ rest) = (arguments, rest) := by
  cases h with
  | nothing =>
    have hnone : arguments? rest = none := by
      cases rest with
      | nil => rfl
      | cons c rest =>
        have hc : ¬('(' == c) = true := fun heq => hrest (by rw [← beq_iff_eq.1 heq]; rfl)
        rw [arguments?, symbol?, if_neg hc]
        rfl
    rw [List.nil_append, hnone]
    rfl
  | @listed _ pieces hne h =>
    have hpiece : ∀ piece ∈ pieces, ',' ∉ piece ∧ ')' ∉ piece := by
      intro piece hmem
      obtain ⟨argument, hargument, hpadded⟩ := exists_of_forall₂ h hmem
      obtain ⟨-, -, hcomma, hclose⟩ := htrimmed argument hargument
      exact ⟨hpadded.not_mem (by decide) hcomma, hpadded.not_mem (by decide) hclose⟩
    have hinside : ∀ c ∈ [','].intercalate pieces, (c != ')') = true := by
      intro c hc
      rcases mem_intercalate hc with hcomma | ⟨piece, hmem, hc⟩
      · exact hcomma ▸ by decide
      · rw [bne_iff_ne]
        exact fun heq => (hpiece piece hmem).2 (heq ▸ hc)
    have hpieces : pieces ≠ [] := by
      rintro rfl
      cases h
      exact hne rfl
    have hmap : pieces.map (fun piece => String.ofList (Text.trim piece)) = arguments := by
      clear hpiece hinside hpieces hne
      induction h with
      | nil => rfl
      | @cons argument piece arguments pieces hpadded hrest ih =>
        obtain ⟨hne, htrim, -⟩ := htrimmed argument List.mem_cons_self
        rw [List.map_cons, hpadded.trim, htrim, String.ofList_toList,
          ih fun other hother => htrimmed other (List.mem_cons_of_mem argument hother)]
    have hread : arguments? ('(' :: ([','].intercalate pieces ++ ')' :: rest))
        = some (arguments, rest) := by
      rw [arguments?]
      change (do
        let inside := ([','].intercalate pieces ++ ')' :: rest).takeWhile fun c => c != ')'
        let rest ← symbol? ')' (([','].intercalate pieces ++ ')' :: rest).dropWhile fun c => c != ')')
        return ((inside.splitOn ',').map fun a => String.ofList (Text.trim a), rest)) = _
      rw [List.takeWhile_append_of_pos hinside, List.dropWhile_append_of_pos hinside,
        List.takeWhile_cons_of_neg (by simp), List.dropWhile_cons_of_neg (by simp), List.append_nil]
      change some (([','].intercalate pieces |>.splitOn ',').map
        (fun a => String.ofList (Text.trim a)), rest) = _
      rw [List.splitOn_intercalate _ (fun piece hmem => (hpiece piece hmem).1) hpieces, hmap]
    rw [List.cons_append, List.append_assoc, List.singleton_append, hread]
    rfl

end Definition

namespace DataType

variable {type : DataType} {variant : String}

theorem trimVariant_of_isVariant (h : IsVariant variant) :
    trimVariant variant.toList = variant.toList := by
  have hkept {s : List Char} (hs : ∀ c ∈ s, c ∈ variant.toList) : s.dropWhile isQuote = s := by
    cases s with
    | nil => rfl
    | cons c rest =>
      exact List.dropWhile_cons_of_neg (by simp [(h.chars c (hs c List.mem_cons_self)).2.2.2])
  rw [trimVariant, h.trimmed, hkept fun _ hc => hc, hkept fun _ hc => List.mem_reverse.1 hc,
    List.reverse_reverse]

theorem enumOf_of_isVariant {variants : List String} (hne : variants ≠ [])
    (h : ∀ variant ∈ variants, IsVariant variant) : enumOf variants = .ok (enum variants) := by
  have hmap : (variants.map fun a => trimVariant a.toList) = variants.map String.toList :=
    List.map_congr_left fun variant hvariant => trimVariant_of_isVariant (h variant hvariant)
  have hall : ((variants.map String.toList).filter fun v => !v.isEmpty)
      = variants.map String.toList := by
    refine List.filter_eq_self.2 fun v hv => ?_
    obtain ⟨variant, hvariant, rfl⟩ := List.mem_map.1 hv
    simpa using (h variant hvariant).ne_nil
  have hback : (variants.map String.toList).map String.ofList = variants := by
    rw [List.map_map]
    exact (List.map_congr_left fun _ _ => String.ofList_toList).trans (List.map_id _)
  rw [enumOf, hmap, hall, hback]
  exact if_neg (by simpa using hne)

theorem isBlank_of_mem_decimalDigits {n : Nat} {c : Char} (h : c ∈ Number.decimalDigits n) :
    Text.isBlank c = false := by
  refine Name.isBlank_eq_false ?_
  rw [Text.isNameChar, Char.isAlphanum, Number.isDigit_of_mem_decimalDigits h]
  simp

theorem charOf_decimalDigits {n : Nat} (h : n < 2 ^ 64) :
    charOf [String.ofList (Number.decimalDigits n)] = .ok (char n) := by
  rw [charOf, String.toList_ofList, Text.trim_of_forall fun c hc => isBlank_of_mem_decimalDigits hc,
    Number.readNatural?_decimalDigits h]

theorem ofParts_of_names {name : String} (h : type.IsPrintable) (hname : name ∈ type.names)
    {written : String} (hwritten : Text.toUpper written = name) :
    ofParts written type.arguments = .ok type := by
  cases type with
  | char length =>
    obtain rfl := List.mem_singleton.1 hname
    simpa [ofParts, hwritten, arguments] using charOf_decimalDigits h
  | enum variants =>
    obtain rfl := List.mem_singleton.1 hname
    simpa [ofParts, hwritten, arguments] using enumOf_of_isVariant h.1 h.2
  | text | date =>
    obtain rfl := List.mem_singleton.1 hname
    simp [ofParts, hwritten, withoutArguments, arguments]
  | int | float | string | bool =>
    simp only [names, List.mem_cons, List.not_mem_nil, or_false] at hname
    rcases hname with rfl | rfl
    all_goals simp [ofParts, hwritten, withoutArguments, arguments]

/-- The names of types are written in capitals. -/
theorem upper_of_mem_names {name : String} (h : name ∈ type.names) :
    Text.upper name.toList = name.toList ∧ Definition.IsNameWord name := by
  have hall : ∀ name ∈ ["INT", "INTEGER", "FLOAT", "DOUBLE", "STRING", "VARCHAR", "TEXT", "BOOL",
      "BOOLEAN", "DATE", "CHAR", "ENUM"],
      Text.upper name.toList = name.toList ∧ Definition.IsNameWord name := by
    decide
  refine hall name ?_
  cases type <;> simp only [names, List.mem_cons, List.not_mem_nil, or_false] at h ⊢ <;> tauto

/-- The arguments of a type that can be written are read as they are. -/
theorem IsPrintable.arguments (h : type.IsPrintable) :
    ∀ argument ∈ type.arguments, argument.toList ≠ [] ∧
      Text.trim argument.toList = argument.toList ∧
        ∀ c ∈ argument.toList, c ≠ ',' ∧ c ≠ '(' ∧ c ≠ ')' := by
  intro argument hargument
  cases type with
  | char length =>
    obtain rfl := List.mem_singleton.1 hargument
    rw [String.toList_ofList]
    refine ⟨Number.decimalDigits_ne_nil length,
      Text.trim_of_forall fun c hc => isBlank_of_mem_decimalDigits hc, fun c hc => ?_⟩
    have hdigit := Number.isDigit_of_mem_decimalDigits hc
    refine ⟨?_, ?_, ?_⟩
    all_goals
      rintro rfl
      exact absurd hdigit (by decide)
  | enum variants =>
    have hvariant := h.2 argument hargument
    exact ⟨hvariant.ne_nil, hvariant.trimmed, fun c hc =>
      ⟨(hvariant.chars c hc).1, (hvariant.chars c hc).2.1, (hvariant.chars c hc).2.2.1⟩⟩
  | _ => exact absurd hargument List.not_mem_nil

end DataType

/-! ### Columns -/

namespace Definition

variable {word : String} {s : List Char}

theorem IsWord.toUpper (h : IsWord word s) : Text.toUpper (String.ofList s) = Text.toUpper word := by
  rw [Text.toUpper, Text.toUpper, String.toList_ofList, Text.upper, Text.upper, List.flatMap_def,
    List.flatMap_def, h.map_congr fun _ _ => Text.upperChar_congr]

end Definition

namespace Column

variable {column start : Column} {constraints : List Constraint}

theorem foldl_constrain_eq (constraints : List Constraint) (start : Column) :
    (constraints.foldl constrain start).name = start.name ∧
      (constraints.foldl constrain start).type = start.type ∧
      ((constraints.foldl constrain start).primaryKey = true ↔
        start.primaryKey = true ∨ .primaryKey ∈ constraints) ∧
      ((constraints.foldl constrain start).unique = true ↔
        start.unique = true ∨ .unique ∈ constraints ∨ .primaryKey ∈ constraints) ∧
      ((constraints.foldl constrain start).notNull = true ↔
        start.notNull = true ∨ .notNull ∈ constraints ∨ .primaryKey ∈ constraints) := by
  induction constraints generalizing start with
  | nil => simp
  | cons constraint rest ih =>
    obtain ⟨hname, htype, hkey, hunique, hnull⟩ := ih (start.constrain constraint)
    rw [List.foldl_cons, hname, htype, hkey, hunique, hnull]
    cases constraint <;> simp [constrain]

/-- Where all references are the same, this is the one that holds. -/
theorem foldl_constrain_reference {target? : Option Reference} (start : Column)
    (h : ∀ target, .references target ∈ constraints → target? = some target) :
    (constraints.foldl constrain start).reference = target? ∨
      (constraints.foldl constrain start).reference = start.reference ∧
        ∀ target, .references target ∉ constraints := by
  induction constraints generalizing start with
  | nil => exact .inr ⟨rfl, fun _ => List.not_mem_nil⟩
  | cons constraint rest ih =>
    rw [List.foldl_cons]
    rcases ih (start.constrain constraint)
      fun target hmem => h target (List.mem_cons_of_mem constraint hmem) with hsame | ⟨hsame, hnone⟩
    · exact .inl hsame
    · cases constraint with
      | references target => exact .inl (hsame.trans (h target List.mem_cons_self).symm)
      | _ => exact .inr ⟨hsame, fun target => by simp [hnone target]⟩

/-- A column is what its name, its type and its constraints make it. -/
theorem IsConstrainedBy.foldl_constrain (h : column.IsConstrainedBy constraints) :
    constraints.foldl constrain (plain column.name column.type) = column := by
  obtain ⟨hname, htype, hkey, hunique, hnull⟩ :=
    foldl_constrain_eq constraints (plain column.name column.type)
  have hreference : (constraints.foldl constrain (plain column.name column.type)).reference
      = column.reference := by
    rcases foldl_constrain_reference (plain column.name column.type)
      fun target hmem => (h.references target).1 hmem with hsame | ⟨hsame, hnone⟩
    · exact hsame
    · cases hcase : column.reference with
      | none => exact hsame
      | some target => exact absurd ((h.references target).2 hcase) (hnone target)
  have hflag {a b : Bool} (hab : a = true ↔ b = true) : a = b := Bool.eq_iff_iff.2 hab
  have hplain : (plain column.name column.type).primaryKey = false ∧
      (plain column.name column.type).unique = false ∧
      (plain column.name column.type).notNull = false := ⟨rfl, rfl, rfl⟩
  rw [hplain.1, h.primaryKey] at hkey
  rw [hplain.2.1, h.unique] at hunique
  rw [hplain.2.2, h.notNull] at hnull
  generalize constraints.foldl constrain (plain column.name column.type) = found at *
  obtain ⟨name, type, primaryKey, unique, notNull, reference⟩ := found
  obtain ⟨name', type', primaryKey', unique', notNull', reference'⟩ := column
  simp only [plain, Bool.false_eq_true, false_or] at *
  rw [hname, htype, hflag hkey, hflag hunique, hflag hnull, hreference]

end Column

namespace Definition

variable {column : Column} {s : List Char}

/-- An item is read part by part. -/
theorem parts?_eq {name typeName : String} {arguments : List String} {constraints : List Constraint}
    {afterName afterColon afterType afterArguments : List Char}
    (hname : name? (skipGap s) = some (name, afterName))
    (hcolon : symbol? ':' (skipGap afterName) = some afterColon)
    (htype : name? (skipGap afterColon) = some (typeName, afterType))
    (harguments : (arguments? afterType).getD ([], afterType) = (arguments, afterArguments))
    (hconstraints :
      Definition.constraints afterArguments.length afterArguments = (constraints, [])) :
    parts? s = some (name, typeName, arguments, constraints) := by
  rw [parts?, hname]
  change (do
    let found ← name? (skipGap (← symbol? ':' (skipGap afterName)))
    let read := (arguments? found.2).getD ([], found.2)
    let more := Definition.constraints read.2.length read.2
    if (skipGap more.2).isEmpty then some (name, found.1, read.1, more.1) else none) = _
  rw [hcolon]
  change (do
    let found ← name? (skipGap afterColon)
    let read := (arguments? found.2).getD ([], found.2)
    let more := Definition.constraints read.2.length read.2
    if (skipGap more.2).isEmpty then some (name, found.1, read.1, more.1) else none) = _
  rw [htype]
  change (let read := (arguments? afterType).getD ([], afterType)
    let more := Definition.constraints read.2.length read.2
    if (skipGap more.2).isEmpty then some (name, typeName, read.1, more.1) else none) = _
  rw [harguments]
  dsimp only
  rw [hconstraints]
  rfl

/-- A printed column is read back. -/
theorem column_of_prints (hcolumn : column.IsPrintable) (h : PrintsColumn column s) :
    Definition.column (String.ofList s) = .ok column := by
  obtain @⟨before, after, type, s, constraints, hbefore, hafter, htype, hconstraints, h⟩ := h
  obtain @⟨name, written, arguments, hname, hwritten, harguments⟩ := htype
  obtain ⟨hupper, hne, hchars⟩ := DataType.upper_of_mem_names hname
  have hstart : skipGap (column.name.toList ++
      (before ++ ':' :: (after ++ (written ++ (arguments ++ s)))))
        = column.name.toList ++ (before ++ ':' :: (after ++ (written ++ (arguments ++ s)))) := by
    have hskip := skipGap_of_startsName isGap_nil (startsName_name hcolumn.name
      (before ++ ':' :: (after ++ (written ++ (arguments ++ s)))))
    rwa [List.nil_append] at hskip
  have hreadName : name? (column.name.toList ++
      (before ++ ':' :: (after ++ (written ++ (arguments ++ s)))))
        = some (column.name, before ++ ':' :: (after ++ (written ++ (arguments ++ s)))) := by
    rw [name?_append (Name.toList_ne_nil hcolumn.name)
      (fun _ hc => Name.isNameChar_of_mem hcolumn.name hc) (endsName_gap hbefore _),
      String.ofList_toList]
  have hcolon : symbol? ':' (skipGap (before ++ ':' :: (after ++ (written ++ (arguments ++ s)))))
      = some (after ++ (written ++ (arguments ++ s))) := by
    rw [skipGap_append hbefore (by decide)]
    rfl
  have hreadType : name? (skipGap (after ++ (written ++ (arguments ++ s))))
      = some (String.ofList written, arguments ++ s) := by
    rw [skipGap_of_startsName hafter (startsName_append (hwritten.ne_nil hne)
      (hwritten.isNameChar hchars) _)]
    exact name?_append (hwritten.ne_nil hne) (hwritten.isNameChar hchars)
      (harguments.endsName h.endsName)
  have hreadArguments : (arguments? (arguments ++ s)).getD ([], arguments ++ s)
      = (column.type.arguments, s) := by
    refine arguments?_of_prints harguments (fun argument hmem => ?_) h.head?_ne
    obtain ⟨hne, htrim, hchars⟩ := hcolumn.type.arguments argument hmem
    exact ⟨hne, htrim, fun hc => (hchars _ hc).1 rfl, fun hc => (hchars _ hc).2.2 rfl⟩
  have hreadConstraints : Definition.constraints s.length s = (constraints, []) :=
    constraints_of_prints h (fun target hmem => hcolumn.reference target
      ((hconstraints.references target).1 hmem)) h.length_le
  have hparts : parts? (column.name.toList ++
      (before ++ ':' :: (after ++ ((written ++ arguments) ++ s))))
        = some (column.name, String.ofList written, column.type.arguments, constraints) := by
    rw [List.append_assoc]
    exact parts?_eq (hstart.symm ▸ hreadName) hcolon hreadType hreadArguments hreadConstraints
  have htypeName : Text.toUpper (String.ofList written) = name := by
    rw [hwritten.toUpper, Text.toUpper, hupper, String.ofList_toList]
  rw [Definition.column, String.toList_ofList, hparts]
  dsimp only
  rw [DataType.ofParts_of_names hcolumn.type hname htypeName]
  change Except.ok (constraints.foldl Column.constrain (Column.plain column.name column.type)) = _
  rw [hconstraints.foldl_constrain]

end Definition

end FlatFileDb
