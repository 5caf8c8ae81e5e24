import FlatFileDb.Text.Occurrence
import FlatFileDb.Value

/-!
# Conditions and chains of them

A condition compares a field with a literal. Conditions are written in a chain, each but the last
with a connector behind it, and a chain is folded strictly from left to right: `a OR b AND c` is
`(a OR b) AND c`. Every condition is tested, also where the outcome is already known.
-/

namespace FlatFileDb

/-- How a condition compares. -/
inductive Operator where
  | equal
  | notEqual
  | greater
  | less
  | greaterEqual
  | lessEqual
  /-- Whether the literal occurs in the field, in any case. -/
  | contains
  deriving DecidableEq, Repr

namespace Operator

/-- The written form of an operator. -/
def symbol : Operator → String
  | equal => "="
  | notEqual => "!="
  | greater => ">"
  | less => "<"
  | greaterEqual => ">="
  | lessEqual => "<="
  | contains => "LIKE"

/-- The operator with the given symbol; containment is a word and not a symbol. -/
def ofSymbol? (symbol : String) : Option Operator :=
  [equal, notEqual, greater, less, greaterEqual, lessEqual].find? fun operator =>
    operator.symbol == symbol

/-- Whether an operator holds between two things in the given order. -/
def holds : Operator → Ordering → Bool
  | equal, ordering => ordering == .eq
  | notEqual, ordering => ordering != .eq
  | greater, ordering => ordering == .gt
  | less, ordering => ordering == .lt
  | greaterEqual, ordering => ordering != .lt
  | lessEqual, ordering => ordering != .gt
  | contains, _ => false

end Operator

/-- The word between two conditions. -/
inductive Connector where
  | and
  | or
  deriving DecidableEq, Repr

/-- One comparison in a chain. -/
structure Condition where
  field : String
  operator : Operator
  value : String
  /-- How the condition is joined to the next one; none on the last. -/
  connector : Option Connector
  deriving DecidableEq, Repr

namespace Condition

/-- Whether `needle` occurs in `text`, in any case. -/
def containsText (text needle : String) : Bool :=
  Text.occursIn (Text.lower needle.toList) (Text.lower text.toList)

/-- Compares a field of a column of the given type with a literal. What has no order fulfils nothing,
and truth values are only equal or not. -/
def compareTyped (type : DataType) (field : String) (operator : Operator) (literal : String) :
    Bool :=
  if operator == .contains then containsText field literal
  else if type == .bool && operator != .equal && operator != .notEqual then false
  else
    match (Value.ofField type field).compare? (Value.ofField type literal) with
    | some ordering => operator.holds ordering
    | none => false

/-- Compares two texts of unknown type. -/
def compareRendered (text : String) (operator : Operator) (literal : String) : Bool :=
  if operator == .contains then containsText text literal
  else operator.holds (compareLoose text literal)

/-- The outcome so far joined with the next one; no connector counts as `and`. -/
def combine (connector : Option Connector) (before next : Bool) : Bool :=
  match connector with
  | some .or => before || next
  | _ => before && next

/-- Continues a chain whose outcome so far is `outcome` and whose last connector is `connector`. -/
def evaluateFrom {m : Type → Type} [Monad m] (test : Condition → m Bool) (outcome : Bool)
    (connector : Option Connector) : List Condition → m Bool
  | [] => pure outcome
  | condition :: rest => do
    let next ← test condition
    evaluateFrom test (combine connector outcome next) condition.connector rest

/-- The outcome of a chain; the empty chain holds. -/
def evaluate {m : Type → Type} [Monad m] (test : Condition → m Bool) : List Condition → m Bool
  | [] => pure true
  | condition :: rest => do
    let outcome ← test condition
    evaluateFrom test outcome condition.connector rest

end Condition

end FlatFileDb
