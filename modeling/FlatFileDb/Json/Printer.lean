import FlatFileDb.Json.Basic
import FlatFileDb.Number.Integer

/-!
# Writing stored values

Two layouts of one grammar: compact, with no blanks at all, and indented by two spaces a level. In
both a comma stands between each two elements or members. In a text the quote, the backslash and the
control characters are escaped, everything else stands as it is.
-/

namespace FlatFileDb.Json

/-- The hexadecimal digit for a number below sixteen. -/
def hexDigit (n : Nat) : Char :=
  if n < 10 then Char.ofNat (48 + n) else Char.ofNat (87 + n)

/-- One character as it stands between quotes. -/
def escapeChar (c : Char) : List Char :=
  if c == '"' then ['\\', '"']
  else if c == '\\' then ['\\', '\\']
  else if c.toNat = 8 then ['\\', 'b']
  else if c.toNat = 9 then ['\\', 't']
  else if c.toNat = 10 then ['\\', 'n']
  else if c.toNat = 12 then ['\\', 'f']
  else if c.toNat = 13 then ['\\', 'r']
  else if c.toNat < 32 then ['\\', 'u', '0', '0', hexDigit (c.toNat / 16), hexDigit (c.toNat % 16)]
  else [c]

/-- A text in quotes. -/
def quote (s : String) : String :=
  let escaped := if s.toList.all isPlain then s else String.ofList (s.toList.flatMap escapeChar)
  "\"" ++ escaped ++ "\""

/-- A value that holds no other values. -/
def scalar : Json → String
  | null => "null"
  | bool value => if value then "true" else "false"
  | natural value => String.ofList (Number.decimalDigits value)
  | number text => String.ofList text
  | string value => quote value
  | _ => ""

mutual

/-- The compact layout. -/
def compact : Json → String
  | array elements => "[" ++ ",".intercalate (compactElements elements) ++ "]"
  | object members => "\x7b" ++ ",".intercalate (compactMembers members) ++ "\x7d"
  | value => scalar value

/-- The elements of an array, each for itself. -/
def compactElements : List Json → List String
  | [] => []
  | value :: rest => compact value :: compactElements rest

/-- The members of an object, each for itself. -/
def compactMembers : List (String × Json) → List String
  | [] => []
  | (name, value) :: rest => (quote name ++ ":" ++ compact value) :: compactMembers rest

end

/-- A new line at the given level. -/
def newLine (level : Nat) : String :=
  String.ofList ('\n' :: List.replicate (2 * level) ' ')

mutual

/-- The indented layout, for a value that stands at the given level. -/
def indented (level : Nat) : Json → String
  | array [] => "[]"
  | array elements =>
    "[" ++ ",".intercalate (indentedElements (level + 1) elements) ++ newLine level ++ "]"
  | object [] => "\x7b\x7d"
  | object members =>
    "\x7b" ++ ",".intercalate (indentedMembers (level + 1) members) ++ newLine level ++ "\x7d"
  | value => scalar value

/-- The elements of an array, each on lines of its own. -/
def indentedElements (level : Nat) : List Json → List String
  | [] => []
  | value :: rest => (newLine level ++ indented level value) :: indentedElements level rest

/-- The members of an object, each on lines of its own. -/
def indentedMembers (level : Nat) : List (String × Json) → List String
  | [] => []
  | (name, value) :: rest =>
    (newLine level ++ quote name ++ ": " ++ indented level value) :: indentedMembers level rest

end

theorem escapeChar_of_isPlain {c : Char} (h : isPlain c) : escapeChar c = [c] := by
  simp only [isPlain, Bool.and_eq_true, decide_eq_true_eq, bne_iff_ne] at h
  obtain ⟨⟨h32, hq⟩, hb⟩ := h
  simp [escapeChar, hq, hb, show c.toNat ≠ 8 by omega, show c.toNat ≠ 9 by omega,
    show c.toNat ≠ 10 by omega, show c.toNat ≠ 12 by omega, show c.toNat ≠ 13 by omega,
    show ¬c.toNat < 32 by omega]

/-- Between its quotes a text stands character by character, each escaped. -/
theorem toList_quote (s : String) :
    (quote s).toList = '"' :: s.toList.flatMap escapeChar ++ ['"'] := by
  have plain (cs : List Char) (h : cs.all isPlain) : cs.flatMap escapeChar = cs := by
    induction cs with
    | nil => rfl
    | cons c cs ih =>
      simp only [List.all_cons, Bool.and_eq_true] at h
      rw [List.flatMap_cons, escapeChar_of_isPlain h.1, ih h.2, List.singleton_append]
  rw [quote]
  split
  next h => simp [plain _ h]
  next => simp

end FlatFileDb.Json
