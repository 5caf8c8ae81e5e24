import FlatFileDb.Json.Basic
import FlatFileDb.Number.Integer

/-!
# Reading stored values

Every step takes the characters that are left and returns what it read with what is left after it.
Nothing may follow the value but blanks; a number has no needless zero in front and a text no bare
control character. An escaped surrogate that does not stand in a pair garbles what it stands in.
-/

namespace FlatFileDb.Json

/-- Leaves out blanks. -/
def skipBlanks (s : List Char) : List Char :=
  s.dropWhile fun c => c == ' ' || c == '\t' || c == '\n' || c == '\r'

/-- The value of a hexadecimal digit. -/
def hexValue? (c : Char) : Option Nat :=
  if c.isDigit then some (c.toNat - 48)
  else if 'a' ≤ c ∧ c ≤ 'f' then some (c.toNat - 87)
  else if 'A' ≤ c ∧ c ≤ 'F' then some (c.toNat - 55)
  else none

/-- The value of four hexadecimal digits. -/
def hexUnit? (a b c d : Char) : Option Nat := do
  return (((← hexValue? a) * 16 + (← hexValue? b)) * 16 + (← hexValue? c)) * 16 + (← hexValue? d)

/-- The character that a letter stands for after a backslash. -/
def unescape? (c : Char) : Option Char :=
  if c == '"' || c == '\\' || c == '/' then some c
  else if c == 'b' then some (Char.ofNat 8)
  else if c == 't' then some '\t'
  else if c == 'n' then some '\n'
  else if c == 'f' then some (Char.ofNat 12)
  else if c == 'r' then some '\r'
  else none

/-- What a text is written as: characters, and escaped surrogates. -/
inductive Symbol where
  | char (c : Char)
  | surrogate (unit : Nat)

/-- The symbol for an escaped number. -/
def Symbol.ofUnit (unit : Nat) : Symbol :=
  if 0xd800 ≤ unit ∧ unit < 0xe000 then surrogate unit else char (Char.ofNat unit)

/-- The characters that symbols stand for: a high surrogate and the low one behind it stand for one
character, and surrogates stand for nothing else. -/
def Symbol.characters? : List Symbol → Option (List Char)
  | [] => some []
  | char c :: rest => (characters? rest).map (c :: ·)
  | surrogate high :: surrogate low :: rest =>
    if high < 0xdc00 ∧ 0xdc00 ≤ low then
      (characters? rest).map
        (Char.ofNat (0x10000 + (high - 0xd800) * 0x400 + (low - 0xdc00)) :: ·)
    else none
  | surrogate _ :: _ => none

/-- The symbols of the rest of a text up to its closing quote. -/
def readSymbols? : List Char → Option (List Symbol × List Char)
  | [] => none
  | '"' :: rest => some ([], rest)
  | '\\' :: 'u' :: a :: b :: c :: d :: rest => do
    let unit ← hexUnit? a b c d
    let (symbols, rest) ← readSymbols? rest
    return (Symbol.ofUnit unit :: symbols, rest)
  | '\\' :: c :: rest => do
    let c ← unescape? c
    let (symbols, rest) ← readSymbols? rest
    return (.char c :: symbols, rest)
  | c :: rest =>
    if c.toNat < 32 || c == '\\' then none
    else do
      let (symbols, rest) ← readSymbols? rest
      return (.char c :: symbols, rest)

/-- The characters in front that stand for themselves, behind those already found, and what follows
them. -/
def readPlain (found : String) : List Char → String × List Char
  | [] => (found, [])
  | c :: rest => if isPlain c then readPlain (found.push c) rest else (found, c :: rest)

/-- The rest of a text up to its closing quote, without escapes; no text if it is garbled. Most texts
are plain throughout. -/
def readText? (s : List Char) : Option (Option String × List Char) :=
  let (plain, rest) := readPlain "" s
  (readSymbols? rest).map fun (symbols, rest) =>
    ((Symbol.characters? symbols).map fun characters => plain ++ String.ofList characters, rest)

/-- At least one digit. -/
def readSomeDigits? (s : List Char) : Option (List Char × List Char) :=
  let digits := s.takeWhile Char.isDigit
  if digits.isEmpty then none else some (digits, s.dropWhile Char.isDigit)

/-- The part of a number behind the point, if there is a point. -/
def readFraction? : List Char → Option (List Char × List Char)
  | '.' :: rest => (readSomeDigits? rest).map fun (digits, rest) => ('.' :: digits, rest)
  | s => some ([], s)

/-- The exponent of a number, if there is one. -/
def readExponent? : List Char → Option (List Char × List Char)
  | [] => some ([], [])
  | c :: rest =>
    if c == 'e' || c == 'E' then
      match rest with
      | '+' :: digits => (readSomeDigits? digits).map fun (ds, rest) => (c :: '+' :: ds, rest)
      | '-' :: digits => (readSomeDigits? digits).map fun (ds, rest) => (c :: '-' :: ds, rest)
      | digits => (readSomeDigits? digits).map fun (ds, rest) => (c :: ds, rest)
    else some ([], c :: rest)

/-- A number without a sign; natural if it has neither a point nor an exponent. -/
def readMagnitude? (s : List Char) : Option (Json × List Char) := do
  let (whole, rest) ← readSomeDigits? s
  if whole.length > 1 && whole.head? == some '0' then none
  let (fraction, rest) ← readFraction? rest
  let (exponent, rest) ← readExponent? rest
  if fraction.isEmpty && exponent.isEmpty then
    return (natural ((Number.digitsFrom 0 whole).getD 0), rest)
  return (number (whole ++ fraction ++ exponent), rest)

/-- A number. -/
def readNumber? : List Char → Option (Json × List Char)
  | '-' :: rest => do
    match ← readMagnitude? rest with
    | (natural n, rest) => return (number ('-' :: Number.decimalDigits n), rest)
    | (number text, rest) => return (number ('-' :: text), rest)
    | _ => none
  | s => readMagnitude? s

/-- A value made of what was read, or garbled if nothing can be made of it. -/
def orGarbled {α : Type} (make : α → Json) (read : Option α) : Json :=
  (read.map make).getD garbled

mutual

/-- A value; `fuel` bounds the depth of the calls. -/
def readValue? : Nat → List Char → Option (Json × List Char)
  | 0, _ => none
  | fuel + 1, s =>
    match skipBlanks s with
    | 'n' :: 'u' :: 'l' :: 'l' :: rest => some (null, rest)
    | 't' :: 'r' :: 'u' :: 'e' :: rest => some (bool true, rest)
    | 'f' :: 'a' :: 'l' :: 's' :: 'e' :: rest => some (bool false, rest)
    | '"' :: rest =>
      (readText? rest).map fun (text, rest) =>
        (orGarbled string text, rest)
    | '[' :: rest =>
      match skipBlanks rest with
      | ']' :: rest => some (array [], rest)
      | rest => (readElements? fuel rest).map fun (elements, rest) => (array elements, rest)
    | '\x7b' :: rest =>
      match skipBlanks rest with
      | '\x7d' :: rest => some (object [], rest)
      | rest => (readMembers? fuel rest).map fun (members, rest) => (orGarbled object members, rest)
    | s => readNumber? s

/-- Elements up to the closing bracket. -/
def readElements? : Nat → List Char → Option (List Json × List Char)
  | 0, _ => none
  | fuel + 1, s => do
    let (value, rest) ← readValue? fuel s
    match skipBlanks rest with
    | ',' :: rest =>
      let (values, rest) ← readElements? fuel rest
      return (value :: values, rest)
    | ']' :: rest => return ([value], rest)
    | _ => none

/-- Members up to the closing brace; none of them if a name is garbled. -/
def readMembers? : Nat → List Char → Option (Option (List (String × Json)) × List Char)
  | 0, _ => none
  | fuel + 1, s =>
    match skipBlanks s with
    | '"' :: rest => do
      let (name, rest) ← readText? rest
      match skipBlanks rest with
      | ':' :: rest =>
        let (value, rest) ← readValue? fuel rest
        let member := name.map fun name => (name, value)
        match skipBlanks rest with
        | ',' :: rest =>
          let (members, rest) ← readMembers? fuel rest
          return (do return (← member) :: (← members), rest)
        | '\x7d' :: rest => return (member.map fun member => [member], rest)
        | _ => none
      | _ => none
    | _ => none

end

/-- The value that a text holds, if it holds one and nothing else. -/
def ofText? (text : String) : Option Json :=
  let s := text.toList
  match readValue? (2 * s.length + 2) s with
  | some (value, rest) => if (skipBlanks rest).isEmpty then some value else none
  | none => none

end FlatFileDb.Json
