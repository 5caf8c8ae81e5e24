import FlatFileDb.Relation.Basic

/-!
# Aggregates

A field written as `FUNCTION(argument)` is computed over the rows of a group. Missing values do not
count; sums and averages also leave out what is no number.
-/

namespace FlatFileDb

/-- What an aggregate computes. -/
inductive AggregateFunction where
  | count
  | sum
  | average
  | minimum
  | maximum
  deriving DecidableEq, Repr

/-- The function that a name names, in any case. -/
def AggregateFunction.ofName? (name : String) : Option AggregateFunction :=
  let upper := Text.toUpper name
  if upper == "COUNT" then some .count
  else if upper == "SUM" then some .sum
  else if upper == "AVG" then some .average
  else if upper == "MIN" then some .minimum
  else if upper == "MAX" then some .maximum
  else none

/-- A function of a column; the argument `*` counts rows. -/
structure Aggregate where
  function : AggregateFunction
  argument : String
  deriving DecidableEq, Repr

namespace Aggregate

/-- The parts of `name(argument)`: the first parenthesis opens and the last character closes. -/
def parts? (s : List Char) : Option (List Char × List Char) :=
  match s.dropWhile fun c => c != '(' with
  | [] => none
  | _ :: rest =>
    if rest.getLast? == some ')' then
      some (Text.trim (s.takeWhile fun c => c != '('), Text.trim rest.dropLast)
    else none

/-- The aggregate that a field spells; none for a plain column. -/
def ofField? (field : String) : Except Error (Option Aggregate) :=
  match parts? field.toList with
  | none => .ok none
  | some (name, argument) =>
    match AggregateFunction.ofName? (String.ofList name) with
    | none => .error (.unknownAggregate (String.ofList name))
    | some function =>
      if argument.isEmpty then .error (.aggregateWithoutArgument field)
      else if argument == ['*'] && function != .count then .error (.starOutsideCount field)
      else .ok (some { function, argument := String.ofList argument })

/-- The first of the smallest texts. -/
def least? : List Loose → Option Loose
  | [] => none
  | first :: rest =>
    some (rest.foldl (fun best next => if best.compare next == .gt then next else best) first)

/-- The last of the largest texts. -/
def greatest? : List Loose → Option Loose
  | [] => none
  | first :: rest =>
    some (rest.foldl (fun best next => if best.compare next == .gt then best else next) first)

/-- The decimal text of a count. -/
def countText (n : Nat) : String :=
  String.ofList (Number.decimalDigits n)

/-- What a function makes of the values that are there. -/
def ofValues (function : AggregateFunction) (values : List String) : String :=
  let known := values.map Loose.ofText
  let numbers := known.filterMap Loose.number?
  let total := Number.Binary64.sum numbers
  match function with
  | .count => countText values.length
  | .sum => total.toText
  | .average =>
    if numbers.isEmpty then Field.nullText else (total.divideBy numbers.length).toText
  | .minimum => ((least? known).map Loose.text).getD Field.nullText
  | .maximum => ((greatest? known).map Loose.text).getD Field.nullText

/-- The aggregate over some rows of a relation. -/
def compute (aggregate : Aggregate) (relation : Relation) (rows : List (List String)) :
    Except Error String :=
  if aggregate.argument == "*" then .ok (countText rows.length)
  else do
    let index ← relation.require aggregate.argument
    let values := rows.filterMap fun row => row[index]?
    return ofValues aggregate.function (values.filter fun value => !Field.isNull value)

end Aggregate

end FlatFileDb
