import FlatFileDb.Text.Blank
import FlatFileDb.Text.Occurrence

/-!
# Statement texts and their tokens

A statement is trimmed and may end in a semicolon. Its tokens are the words that remain after blanks
have been put around every comparison, so that `a>5` falls into the same tokens as `a > 5`.
-/

namespace FlatFileDb.Statement

/-- The statement without the blanks around it and without one semicolon at its end. -/
def clean (s : List Char) : List Char :=
  let trimmed := Text.trim s
  Text.trimEnd ((Text.beforeEnd? [';'] trimmed).getD trimmed)

/-- One character with blanks around it if it compares by itself. -/
def spaceOut (c : Char) : List Char :=
  if c == '=' || c == '>' || c == '<' then [' ', c, ' '] else [c]

/-- The text with blanks around every comparison; `>=`, `<=` and `!=` stay whole. -/
def pad : List Char → List Char
  | [] => []
  | [c] => spaceOut c
  | c :: d :: rest =>
    if d == '=' && (c == '>' || c == '<' || c == '!') then ' ' :: c :: '=' :: ' ' :: pad rest
    else spaceOut c ++ pad (d :: rest)

/-- The tokens of a text. -/
def tokens (s : List Char) : List String :=
  (Text.words (pad s)).map String.ofList

/-- A text without the quotes around it, if both ends have the same quote. -/
def unquote (s : List Char) : List Char :=
  match s.head?, s.getLast? with
  | some first, some last =>
    if 2 ≤ s.length && first == last && (first == '"' || first.toNat == 0x27) then
      (s.drop 1).dropLast
    else s
  | _, _ => s

/-- A text without the quotes around it. -/
def unquoteText (s : String) : String :=
  String.ofList (unquote s.toList)

end FlatFileDb.Statement
