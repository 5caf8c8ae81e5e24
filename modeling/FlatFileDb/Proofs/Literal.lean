import FlatFileDb.Proofs.Quoted

/-!
# Literals in statements

A condition takes a quoted value to its end, and a query does so unless a word between the quotes starts
a clause. An update puts its tokens together again and cuts the text at commas and equality signs before
it looks at quotes, so in what it assigns neither may stand between the quotes. Otherwise a literal in a
condition or an assignment is its tokens with one blank between each two.
-/

namespace FlatFileDb.Statement

variable {quote : Char} {table column value word : String} {words : List String}
  {s inside source : List Char}

/-! ### Assigning a quoted value -/

/-- An assignment of a quoted value as it is put together from its tokens. -/
def assigned (column : String) (quote : Char) (inside : List Char) : List Char :=
  column.toList ++ ' ' :: '=' :: ' ' :: quote :: (inside ++ [quote])

section Values

variable (htable : Name.isValid table = true) (hcolumn : Name.isValid column = true)
  (hquote : isQuote quote = true) (hinside : quote ∉ value.toList)
  (htrimmed : Text.trim value.toList = value.toList)

include htable hcolumn hquote hinside htrimmed

end Values

end FlatFileDb.Statement
