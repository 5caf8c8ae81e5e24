import FlatFileDb.Text.AlphanumericTable

/-!
# Alphanumeric characters

Letters and numerals of every script, and the narrow ASCII class that names are made of.
-/

namespace FlatFileDb.Text

/-- A letter or a numeral of any script. -/
def isAlphanumeric (c : Char) : Bool :=
  if c.toNat < 0x80 then c.isAlphanum
  else AlphanumericTable.all.any fun range => range.1 ≤ c.toNat && c.toNat ≤ range.2

/-- An ASCII letter, an ASCII digit or an underscore. -/
def isNameChar (c : Char) : Bool :=
  c.isAlphanum || c == '_'

end FlatFileDb.Text
