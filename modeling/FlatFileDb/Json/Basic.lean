/-!
# Stored values

The values that files hold: objects keep their members as written, repeated names included, so that
whoever reads a record can refuse them. A number that is not a natural one keeps its text. A value
that is written rightly and still stands for nothing is garbled: it is no value of any kind, but may
be passed over.
-/

namespace FlatFileDb

-- Powers are those of the core library, whatever else is imported.
attribute [local instance (2000)] instPowNat

/-- A value of a stored file. -/
inductive Json where
  | null
  | bool (value : Bool)
  | natural (value : Nat)
  | number (text : List Char)
  | string (value : String)
  | array (elements : List Json)
  | object (members : List (String × Json))
  /-- A text, or an object with a name, in which a surrogate stands without its partner. -/
  | garbled

namespace Json

/-- The value as a text. -/
def string? : Json → Option String
  | string s => some s
  | _ => none

/-- The value as a truth value. -/
def bool? : Json → Option Bool
  | bool b => some b
  | _ => none

/-- The value as a natural number of at most 64 bits. -/
def natural? : Json → Option Nat
  | natural n => if n < 2 ^ (64 : Nat) then some n else none
  | _ => none

/-- The value as a list, each element read by `read`. -/
def list? {α : Type} (read : Json → Option α) : Json → Option (List α)
  | array elements => elements.mapM read
  | _ => none

/-- The value as something that may be absent. -/
def optional? {α : Type} (read : Json → Option α) : Json → Option (Option α)
  | null => some none
  | value => (read value).map some

/-- The members of a record with the given names. A record is an object in which none of these names
stands twice, whatever other names it has, or an array with one element for each name. -/
def record? (names : List String) : Json → Option (List (String × Json))
  | object members =>
    let known := members.filter fun member => names.contains member.1
    if (known.map Prod.fst).Nodup then some known else none
  | array elements => if elements.length = names.length then some (names.zip elements) else none
  | _ => none

/-- Whether a character stands for itself between the quotes of a text. -/
def isPlain (c : Char) : Bool :=
  32 ≤ c.toNat && c != '"' && c != '\\'

/-- One of a fixed choice of words, written as a text or as the name of a null member. -/
def word? : Json → Option String
  | string s => some s
  | object [(name, null)] => some name
  | _ => none

end Json

end FlatFileDb
