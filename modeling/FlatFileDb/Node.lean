/-!
# The role of a node

A node is the master, or it follows one and is then read only.
-/

namespace FlatFileDb

/-- The role of a node among others. -/
inductive NodeRole where
  | master
  | replica (host : String)
  deriving DecidableEq, Repr

end FlatFileDb
