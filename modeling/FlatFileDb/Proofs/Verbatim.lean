import FlatFileDb.Proofs.Remainder
import FlatFileDb.Proofs.Spelling
import FlatFileDb.Proofs.Statement

/-!
# Texts taken as written

Some commands take the rest of their statement as it stands, to read it later. The rest is found by
counting: as many words are left out as tokens were read. A word in which a comparison stands falls
into several tokens, so behind such a word the count leaves out tokens that were never read. Without
one, the tokens read and those of the text taken are all there are.
-/

namespace FlatFileDb

/-- The text that a command takes as written. -/
def Command.raw? : Command → Option String
  | createTable _ definition => some definition
  | insert _ row => some row
  | createView _ query => some query
  | createTrigger definition => some definition.action
  | become (.replica host) => some host
  | _ => none

namespace Statement

/-- Whether a command with a text taken as written is introduced by the given tokens. -/
inductive Introduces : List String → Command → Prop
  | createTable {verb table definition : String} (hverb : Keyword.create.Spells verb) :
      Introduces [verb, table] (.createTable table definition)
  | createTheTable {verb what table definition : String}
      (hverb : Keyword.create.Spells verb) (hwhat : Keyword.table.Spells what) :
      Introduces [verb, what, table] (.createTable table definition)
  | insert {verb table row : String} (hverb : Keyword.insert.Spells verb) :
      Introduces [verb, table] (.insert table row)
  | createView {verb what name as query : String} (hverb : Keyword.create.Spells verb)
      (hwhat : Keyword.view.Spells what) (has : Keyword.definedAs.Spells as) :
      Introduces [verb, what, name, as] (.createView name query)
  | createTrigger {verb what name when word on table act action : String} {event : Operation}
      (hverb : Keyword.create.Spells verb) (hwhat : Keyword.trigger.Spells what)
      (hwhen : Keyword.event.Spells when) (hword : Keyword.operation? word = some event)
      (hon : Keyword.onTable.Spells on) (hact : Keyword.action.Spells act) :
      Introduces [verb, what, name, when, word, on, table, act]
        (.createTrigger { name, event, table, action })
  | becomeReplica {verb what of host : String} (hverb : Keyword.become.Spells verb)
      (hwhat : Keyword.replica.Spells what) (hof : Keyword.following.Spells of) :
      Introduces [verb, what, of] (.become (.replica host))

/-- Whether a cursor over a text stands behind the given tokens. -/
structure Cursor.IsBehind (taken : List String) (s : List Char) (cursor : Cursor) : Prop where
  source : cursor.source = s
  count : cursor.taken = taken.length
  all : tokens s = taken ++ cursor.left

namespace Cursor.IsBehind

variable {taken : List String} {s : List Char} {cursor next : Cursor} {keyword : Keyword}

theorem start (s : List Char) : IsBehind [] s (Cursor.start s) :=
  ⟨rfl, rfl, rfl⟩

theorem advance (h : IsBehind taken s cursor) {token : String} {rest : List String}
    (hleft : cursor.left = token :: rest) : IsBehind (taken ++ [token]) s (cursor.advance 1) where
  source := h.source
  count := by
    rw [List.length_append]
    exact congrArg (· + 1) h.count
  all := by
    rw [h.all, Cursor.advance, hleft, List.append_assoc]
    rfl

theorem of_sees (h : IsBehind taken s cursor) (hsees : cursor.sees keyword = true) :
    ∃ token, keyword.Spells token ∧ IsBehind (taken ++ [token]) s (cursor.advance 1) := by
  unfold sees at hsees
  split at hsees
  · exact absurd hsees (by simp)
  · rename_i token rest hleft
    exact ⟨token, Keyword.accepts_iff.1 hsees, h.advance hleft⟩

theorem of_expect (h : IsBehind taken s cursor) (hexpect : cursor.expect keyword = .ok next) :
    ∃ token, keyword.Spells token ∧ IsBehind (taken ++ [token]) s next := by
  unfold expect at hexpect
  split at hexpect
  · exact absurd hexpect (by simp)
  · rename_i token rest hleft
    split at hexpect
    · rename_i haccepts
      exact ⟨token, Keyword.accepts_iff.1 haccepts, Except.ok.inj hexpect ▸ h.advance hleft⟩
    · exact absurd hexpect (by simp)

theorem of_token (h : IsBehind taken s cursor) {what token : String}
    (htoken : cursor.token what = .ok (token, next)) : IsBehind (taken ++ [token]) s next := by
  unfold Cursor.token at htoken
  split at htoken
  · exact absurd htoken (by simp)
  · rename_i token' rest hleft
    obtain ⟨rfl, rfl⟩ := Prod.mk.inj (Except.ok.inj htoken)
    exact h.advance hleft

theorem of_name (h : IsBehind taken s cursor) {what name : String}
    (hname : cursor.name what = .ok (name, next)) : IsBehind (taken ++ [name]) s next := by
  obtain ⟨⟨token, behind⟩, htoken, hname⟩ := Action.of_bind_eq_ok hname
  simp only at hname
  split at hname
  · obtain ⟨rfl, rfl⟩ := Prod.mk.inj (Except.ok.inj hname)
    exact h.of_token htoken
  · exact absurd hname Action.throw_ne_ok

/-- The text taken as written is not empty, and it follows as many words as tokens were read. -/
theorem of_someRawRest (h : IsBehind taken s cursor) {what : String} {rest : List Char}
    (hrest : cursor.someRawRest what = .ok rest) :
    rest ≠ [] ∧ rest = Text.dropWords taken.length s := by
  unfold someRawRest rawRest at hrest
  extract_lets found at hrest
  split at hrest
  · exact absurd hrest (by simp)
  · rename_i hfound
    obtain rfl := Except.ok.inj hrest
    exact ⟨by simpa using hfound, by rw [← h.source, ← h.count]⟩

end Cursor.IsBehind

/-! ### What introduces a text -/

/-- Whether a text is what a command with its introduction takes as written out of another one. -/
def TakesRaw (s : List Char) (command : Command) : Prop :=
  ∀ raw, command.raw? = some raw → ∃ taken, Introduces taken command ∧ taken <+: tokens s ∧
    raw.toList ≠ [] ∧ raw.toList = Text.dropWords taken.length s

variable {s : List Char} {command : Command} {cursor : Cursor} {verb : String}
  {read : List Char → Except Error Command}

theorem takesRaw_of_raw?_eq_none (h : command.raw? = none) : TakesRaw s command := by
  intro raw hraw
  rw [h] at hraw
  exact absurd hraw (by simp)

/-- A text taken behind the tokens that introduce its command. -/
theorem takesRaw_of_someRawRest {taken : List String} {what : String} {rest : List Char}
    (hbehind : cursor.IsBehind taken s) (hrest : cursor.someRawRest what = .ok rest)
    (hraw : command.raw? = some (String.ofList rest)) (hintroduces : Introduces taken command) :
    TakesRaw s command := by
  intro raw h
  obtain rfl := Option.some.inj (hraw.symm.trans h)
  obtain ⟨hne, hdrop⟩ := hbehind.of_someRawRest hrest
  rw [String.toList_ofList]
  exact ⟨taken, hintroduces, ⟨_, hbehind.all.symm⟩, hne, hdrop⟩

theorem takesRaw_insertion (hverb : Keyword.insert.Spells verb)
    (hbehind : cursor.IsBehind [verb] s) (h : insertion cursor = .ok command) :
    TakesRaw s command := by
  obtain ⟨⟨table, next⟩, htable, h⟩ := Action.of_bind_eq_ok h
  obtain ⟨row, hrow, h⟩ := Action.of_bind_eq_ok h
  obtain rfl := Except.ok.inj h
  exact takesRaw_of_someRawRest (hbehind.of_name htable) hrow rfl (.insert hverb)

theorem takesRaw_tableDefinition (hverb : Keyword.create.Spells verb)
    (hbehind : cursor.IsBehind [verb] s) (h : tableDefinition cursor = .ok command) :
    TakesRaw s command := by
  obtain ⟨⟨table, next⟩, htable, h⟩ := Action.of_bind_eq_ok h
  obtain ⟨definition, hdefinition, h⟩ := Action.of_bind_eq_ok h
  obtain rfl := Except.ok.inj h
  unfold Cursor.skip at htable
  split at htable
  · obtain ⟨what, hwhat, hbehind⟩ := hbehind.of_sees ‹_›
    exact takesRaw_of_someRawRest (hbehind.of_name htable) hdefinition rfl (.createTheTable hverb hwhat)
  · exact takesRaw_of_someRawRest (hbehind.of_name htable) hdefinition rfl (.createTable hverb)

theorem takesRaw_viewDefinition {what : String} (hverb : Keyword.create.Spells verb)
    (hwhat : Keyword.view.Spells what) (hbehind : cursor.IsBehind [verb, what] s)
    (h : viewDefinition read cursor = .ok command) : TakesRaw s command := by
  obtain ⟨⟨name, next⟩, hname, h⟩ := Action.of_bind_eq_ok h
  obtain ⟨next, hexpect, h⟩ := Action.of_bind_eq_ok h
  obtain ⟨query, hquery, h⟩ := Action.of_bind_eq_ok h
  obtain ⟨inner, -, h⟩ := Action.of_bind_eq_ok h
  obtain ⟨as, has, hbehind⟩ := (hbehind.of_name hname).of_expect hexpect
  split at h
  · obtain rfl := Except.ok.inj h
    exact takesRaw_of_someRawRest hbehind hquery rfl (.createView hverb hwhat has)
  · exact absurd h Action.throw_ne_ok

theorem takesRaw_triggerDefinition {what : String} (hverb : Keyword.create.Spells verb)
    (hwhat : Keyword.trigger.Spells what) (hbehind : cursor.IsBehind [verb, what] s)
    (h : triggerDefinition read cursor = .ok command) : TakesRaw s command := by
  obtain ⟨⟨name, next⟩, hname, h⟩ := Action.of_bind_eq_ok h
  obtain ⟨next, hexpect, h⟩ := Action.of_bind_eq_ok h
  obtain ⟨when, hwhen, hbehind⟩ := (hbehind.of_name hname).of_expect hexpect
  obtain ⟨⟨word, next⟩, hword, h⟩ := Action.of_bind_eq_ok h
  simp only at h
  split at h
  · rename_i event hevent
    obtain ⟨next, hexpect, h⟩ := Action.of_bind_eq_ok h
    obtain ⟨on, hon, hbehind⟩ := (hbehind.of_token hword).of_expect hexpect
    obtain ⟨⟨table, next⟩, htable, h⟩ := Action.of_bind_eq_ok h
    obtain ⟨next, hexpect, h⟩ := Action.of_bind_eq_ok h
    obtain ⟨act, hact, hbehind⟩ := (hbehind.of_name htable).of_expect hexpect
    obtain ⟨action, haction, h⟩ := Action.of_bind_eq_ok h
    obtain ⟨inner, -, h⟩ := Action.of_bind_eq_ok h
    obtain rfl := Except.ok.inj h
    exact takesRaw_of_someRawRest hbehind haction rfl
      (.createTrigger hverb hwhat hwhen hevent hon hact)
  · exact absurd h Action.throw_ne_ok

/-! ### Every command -/

/-- Where nothing is read but commands without such a text, there is none to take. -/
theorem takesRaw_of_reads {result : Except Error Command}
    (hnone : Reads (fun command => command.raw? = none) result) (h : result = .ok command) :
    TakesRaw s command :=
  takesRaw_of_raw?_eq_none (hnone command h)

theorem takesRaw_creation (hverb : Keyword.create.Spells verb)
    (hbehind : cursor.IsBehind [verb] s) (h : creation read cursor = .ok command) :
    TakesRaw s command := by
  unfold creation at h
  split at h
  · obtain ⟨what, hwhat, hbehind⟩ := hbehind.of_sees ‹_›
    exact takesRaw_viewDefinition hverb hwhat hbehind h
  split at h
  · obtain ⟨what, hwhat, hbehind⟩ := hbehind.of_sees ‹_›
    exact takesRaw_triggerDefinition hverb hwhat hbehind h
  split at h
  · exact takesRaw_of_reads (.indexOn (fun _ _ _ _ => rfl) _) h
  · exact takesRaw_tableDefinition hverb hbehind h

theorem takesRaw_nodeRole (hverb : Keyword.become.Spells verb)
    (hbehind : cursor.IsBehind [verb] s) (h : nodeRole cursor = .ok command) :
    TakesRaw s command := by
  unfold nodeRole at h
  split at h
  · obtain ⟨-, -, h⟩ := Action.of_bind_eq_ok h
    exact takesRaw_of_raw?_eq_none (Except.ok.inj h ▸ rfl)
  split at h
  · obtain ⟨what, hwhat, hbehind⟩ := hbehind.of_sees ‹_›
    obtain ⟨next, hexpect, h⟩ := Action.of_bind_eq_ok h
    obtain ⟨of, hof, hbehind⟩ := hbehind.of_expect hexpect
    obtain ⟨host, hhost, h⟩ := Action.of_bind_eq_ok h
    obtain rfl := Except.ok.inj h
    exact takesRaw_of_someRawRest hbehind hhost rfl (.becomeReplica hverb hwhat hof)
  split at h
  · exact absurd h Action.throw_ne_ok
  · exact absurd h Action.throw_ne_ok

theorem takesRaw_commandOf (hbehind : cursor.IsBehind [verb] s)
    (h : commandOf read verb cursor = .ok command) : TakesRaw s command := by
  unfold commandOf at h
  iterate 11 rw [ite_eq_iff] at h
  rcases h with ⟨hverb, h⟩ | ⟨-, h⟩
  · exact takesRaw_creation (Keyword.accepts_iff.1 hverb) hbehind h
  rcases h with ⟨hverb, h⟩ | ⟨-, h⟩
  · exact takesRaw_insertion (Keyword.accepts_iff.1 hverb) hbehind h
  rcases h with ⟨-, h⟩ | ⟨-, h⟩
  · exact takesRaw_of_reads (.selection (fun _ _ => rfl) (by rfl) _) h
  rcases h with ⟨-, h⟩ | ⟨-, h⟩
  · exact takesRaw_of_reads (.change (fun _ _ _ _ => rfl) _) h
  rcases h with ⟨-, h⟩ | ⟨-, h⟩
  · exact takesRaw_of_reads (.deletion (fun _ _ _ => rfl) _) h
  rcases h with ⟨-, h⟩ | ⟨-, h⟩
  · exact takesRaw_of_reads (.indexOn (fun _ _ _ _ => rfl) _) h
  rcases h with ⟨-, h⟩ | ⟨-, h⟩
  · exact takesRaw_of_reads (.wordSearch (fun _ _ _ _ _ => rfl) _) h
  iterate 3
    rcases h with ⟨-, h⟩ | ⟨-, h⟩
    · exact takesRaw_of_reads (.transaction (by rfl) _) h
  rcases h with ⟨hverb, h⟩ | ⟨-, h⟩
  · exact takesRaw_nodeRole (Keyword.accepts_iff.1 hverb) hbehind h
  exact absurd h (by simp)

theorem takesRaw_of_parse {text : String} (h : parse text = .ok command) :
    TakesRaw (clean text.toList) command := by
  rw [parse, readWithin] at h
  have hbehind := Cursor.IsBehind.start (clean text.toList)
  split at h
  · exact absurd h (by simp)
  · rename_i verb rest hleft
    exact takesRaw_commandOf (hbehind.advance hleft) h

/-! ### What is left out -/

/-- No comparison stands in what introduces a text. -/
theorem Introduces.isComparing {taken : List String} (h : Introduces taken command)
    (hnamed : command.isWellNamed = true) :
    ∀ token ∈ taken, ∀ c ∈ token.toList, isComparing c = false := by
  have hname {token : String} (hvalid : Name.isValid token = true) :
      ∀ c ∈ token.toList, Statement.isComparing c = false := fun _ hc =>
    isComparing_of_isValid hvalid hc
  have hkeyword {keyword : Keyword} {token : String} (hspells : keyword.Spells token) :
      ∀ c ∈ token.toList, Statement.isComparing c = false := fun _ hc => hspells.isComparing hc
  cases h with
  | createTable hverb =>
    rw [List.forall_mem_cons, List.forall_mem_singleton]
    exact ⟨hkeyword hverb, hname hnamed⟩
  | createTheTable hverb hwhat =>
    iterate 2 rw [List.forall_mem_cons]
    rw [List.forall_mem_singleton]
    exact ⟨hkeyword hverb, hkeyword hwhat, hname hnamed⟩
  | insert hverb =>
    rw [List.forall_mem_cons, List.forall_mem_singleton]
    exact ⟨hkeyword hverb, hname hnamed⟩
  | createView hverb hwhat has =>
    iterate 3 rw [List.forall_mem_cons]
    rw [List.forall_mem_singleton]
    exact ⟨hkeyword hverb, hkeyword hwhat, hname hnamed, hkeyword has⟩
  | createTrigger hverb hwhat hwhen hword hon hact =>
    rw [Command.isWellNamed, Bool.and_eq_true] at hnamed
    obtain ⟨_, hevent⟩ := Keyword.spells_of_operation? hword
    iterate 7 rw [List.forall_mem_cons]
    rw [List.forall_mem_singleton]
    exact ⟨hkeyword hverb, hkeyword hwhat, hname hnamed.1, hkeyword hwhen, hkeyword hevent,
      hkeyword hon, hname hnamed.2, hkeyword hact⟩
  | becomeReplica hverb hwhat hof =>
    iterate 2 rw [List.forall_mem_cons]
    rw [List.forall_mem_singleton]
    exact ⟨hkeyword hverb, hkeyword hwhat, hkeyword hof⟩

/-- Every word has a token. -/
theorem length_le_flatMap_tokens {words : List (List Char)} (h : ∀ word ∈ words, word ∈ Text.words s) :
    words.length ≤ (words.flatMap tokens).length := by
  induction words with
  | nil => exact Nat.zero_le _
  | cons word rest ih =>
    have hword := h word (by simp)
    have hne : tokens word ≠ [] := by
      intro hnone
      have hall := flatten_tokens word
      rw [hnone, List.filter_eq_self.2 fun c hc => by
        simp [Text.isBlank_of_mem_words hword hc]] at hall
      exact Text.ne_nil_of_mem_words hword hall.symm
    have hone := List.length_pos_iff.2 hne
    have hrest := ih fun other hother => h other (List.mem_cons_of_mem word hother)
    rw [List.flatMap_cons, List.length_append, List.length_cons]
    omega

/-- Tokens without comparisons that stand at the start of a text are those of as many words of it,
exactly if there is no comparison in these words. -/
theorem flatMap_tokens_words {taken : List String} (htaken : taken <+: tokens s)
    (hplain : ∀ token ∈ taken, ∀ c ∈ token.toList, isComparing c = false)
    (hrest : Text.dropWords taken.length s ≠ []) :
    ∃ skipped, ((Text.words s).take taken.length).flatMap tokens = taken ++ skipped ∧
      (skipped = [] ↔
        ∀ word ∈ (Text.words s).take taken.length, ∀ c ∈ word, isComparing c = false) := by
  have hmem : ∀ word ∈ (Text.words s).take taken.length, word ∈ Text.words s :=
    fun word hword => List.mem_of_mem_take hword
  have henough : taken.length ≤ (Text.words s).length := by
    by_contra hshort
    exact hrest (Text.dropWords_eq_nil_iff.2 (by omega))
  have hlength : ((Text.words s).take taken.length).length = taken.length := by
    rw [List.length_take, Nat.min_eq_left henough]
  have hfront : ((Text.words s).take taken.length).flatMap tokens <+: tokens s :=
    ⟨_, (tokens_dropWords taken.length s).symm⟩
  have hle := length_le_flatMap_tokens hmem
  rw [hlength] at hle
  obtain ⟨skipped, hskipped⟩ := List.prefix_of_prefix_length_le htaken hfront hle
  refine ⟨skipped, hskipped.symm, ?_, ?_⟩
  · rintro rfl word hword c hc
    have hall := flatten_tokens word
    rw [List.filter_eq_self.2 fun d hd => by
      simp [Text.isBlank_of_mem_words (hmem word hword) hd]] at hall
    rw [← hall] at hc
    obtain ⟨_, hmap, hc⟩ := List.mem_flatten.1 hc
    obtain ⟨token, htoken, rfl⟩ := List.mem_map.1 hmap
    rw [List.append_nil] at hskipped
    exact hplain token (hskipped ▸ List.mem_flatMap.2 ⟨word, hword, htoken⟩) c hc
  · intro hwords
    have hmap : ((Text.words s).take taken.length).flatMap tokens
        = ((Text.words s).take taken.length).map String.ofList := by
      rw [List.map_eq_flatMap, List.flatMap_def, List.flatMap_def]
      refine congrArg List.flatten (List.map_congr_left fun word hword => ?_)
      exact tokens_of_plain (fun c hc => Text.isBlank_of_mem_words (hmem word hword) hc)
        (Text.ne_nil_of_mem_words (hmem word hword)) (hwords word hword)
    have htotal := congrArg List.length (hskipped.trans hmap)
    rw [List.length_append, List.length_map, hlength] at htotal
    exact List.length_eq_zero_iff.1 (by omega)

/-- The text that a command takes as written is what follows as many words as there are tokens that
introduce the command. The tokens of the statement are these, some that are left out, and those of
the text; none is left out exactly if no comparison stands in those words. -/
theorem tokens_of_raw {text raw : String} (h : parse text = .ok command)
    (hraw : command.raw? = some raw) :
    ∃ taken skipped, Introduces taken command ∧ raw.toList ≠ [] ∧
      raw.toList = Text.dropWords taken.length (clean text.toList) ∧
      tokens (clean text.toList) = taken ++ skipped ++ tokens raw.toList ∧
      (skipped = [] ↔ ∀ word ∈ (Text.words (clean text.toList)).take taken.length,
        ∀ c ∈ word, isComparing c = false) := by
  obtain ⟨taken, hintroduces, htaken, hne, hdrop⟩ := takesRaw_of_parse h raw hraw
  obtain ⟨skipped, hwords, hskipped⟩ := flatMap_tokens_words htaken
    (hintroduces.isComparing (isWellNamed_of_parse h)) (hdrop ▸ hne)
  refine ⟨taken, skipped, hintroduces, hne, hdrop, ?_, hskipped⟩
  rw [hdrop, ← hwords]
  exact tokens_dropWords taken.length (clean text.toList)

/-- The comparison and what stands behind it in the word of the table's name are left out. -/
theorem tokens_of_raw_joinedWord :
    parse "INSERT t=5 1|a" = .ok (.insert "t" "1|a") ∧
      ∃ taken skipped, Introduces taken (.insert "t" "1|a") ∧
        tokens (clean "INSERT t=5 1|a".toList) = taken ++ skipped ++ tokens "1|a".toList ∧
        skipped ≠ [] := by
  have hparse : parse "INSERT t=5 1|a" = .ok (.insert "t" "1|a") := by decide
  obtain ⟨taken, skipped, hintroduces, -, -, htokens, hskipped⟩ := tokens_of_raw hparse rfl
  refine ⟨hparse, taken, skipped, hintroduces, htokens, fun hnone => ?_⟩
  have hlength : taken.length = 2 := by
    cases hintroduces with
    | insert hverb => rfl
  have hwords := hskipped.1 hnone
  rw [hlength] at hwords
  exact absurd (hwords "t=5".toList (by decide) '=' (by decide)) (by decide)

end Statement

end FlatFileDb
