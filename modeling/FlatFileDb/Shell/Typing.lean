import FlatFileDb.Text.Bytes
import FlatFileDb.Text.Grapheme

/-!
# Typed lines

A backspace in a line takes back what was typed before it: not one code point, but all that a reader
takes for one character.
-/

namespace FlatFileDb.Shell

/-- What was typed so far. -/
structure Typed where
  /-- The characters, the last one first. -/
  characters : List Char
  /-- How many bytes each cluster takes, the last one first. -/
  sizes : List Nat
  deriving DecidableEq, Repr

namespace Typed

/-- Nothing. -/
def empty : Typed := { characters := [], sizes := [] }

/-- The size of a cluster, which has room in one byte only: of larger ones the remainder counts. -/
def sizeOf (cluster : List Char) : Nat :=
  Text.byteCount cluster % 256

/-- Whether a cluster is a backspace. -/
def isBackspace (cluster : List Char) : Bool :=
  cluster.map Char.toNat == [8]

/-- Takes back the last cluster, if there is one. -/
def takeBack (typed : Typed) : Typed :=
  match typed.sizes with
  | [] => typed
  | size :: sizes =>
    { characters := (Text.dropBytes? size typed.characters).getD [], sizes }

/-- Types one more cluster. -/
def push (typed : Typed) (cluster : List Char) : Typed :=
  if isBackspace cluster then typed.takeBack
  else
    { characters := cluster.reverse ++ typed.characters, sizes := sizeOf cluster :: typed.sizes }

end Typed

/-- A line as it reads after its backspaces. -/
def takeBack (line : List Char) : List Char :=
  ((Text.clusters line).foldl Typed.push .empty).characters.reverse

end FlatFileDb.Shell
