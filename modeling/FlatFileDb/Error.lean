import FlatFileDb.Log.Entry

/-!
# Errors

Everything that a statement or a store can fail with, one constructor a cause. The wording stands in
one function, the layer that a cause belongs to in another.
-/

namespace FlatFileDb

/-- A cause of failure. -/
inductive Error where
  /- The text of a statement -/
  | emptyStatement
  | unknownVerb (word : String)
  | unexpectedToken (expected found : String)
  | unexpectedEnd (expected : String)
  | viewOfCommand (kind : String)
  | noFields
  | emptyField
  | malformedAssignment (text : String)
  | badAssignedColumn (name : String)
  | unclosedQuote
  | countExpected (clause found : String)
  /- Column definitions -/
  | malformedColumn (text : String)
  | duplicateColumn (name : String)
  | typeWithArguments (name : String)
  | badLength (text : String)
  | lengthMissing
  | variantsMissing
  | unknownType (name : String)
  /- Who may do what -/
  | notLoggedIn
  | roleTooLow (required actual : String)
  | noDatabaseSelected
  | accessDenied (table role access : String)
  | readOnlyReplica
  /- Tables and the values they take -/
  | unknownTable (name : String)
  | tableExists (name : String)
  | unknownColumn (column table : String)
  | badName (name : String)
  | fieldCount (expected found : Nat)
  | typeMismatch (column expected value : String)
  | nullRefused (column : String)
  | duplicateValue (value column : String)
  | missingReference (value column table referenced : String)
  | delimiterInField (column : String)
  | lineBreakInField (column : String)
  /- Files -/
  | tableFileMissing (table : String)
  | unknownRow (table id : String)
  | databaseExists (name : String)
  | unknownDatabase (name : String)
  | unknownIndex (table column : String)
  | fileFailure
  | unreadableFile
  /- Transactions -/
  | transactionActive (user : String)
  | noTransaction (user : String)
  | partlyApplied (transaction : String) (cause : Error) (applied : List Log.Entry)
  /- Running a statement -/
  | unknownRole (name : String)
  | unknownAggregate (name : String)
  | aggregateWithoutArgument (text : String)
  | starOutsideCount (text : String)
  | havingWithoutGroups
  | viewWithoutQuery (name : String)
  | nestingTooDeep (limit : Nat)
  deriving DecidableEq, Repr

namespace Error

/-- The layers that errors come from. -/
inductive Layer where
  | parse
  | authorization
  | schema
  | storage
  | transaction
  | execution
  deriving DecidableEq, Repr

/-- The layer that an error comes from. -/
def layer : Error → Layer
  | emptyStatement | unknownVerb _ | unexpectedToken _ _ | unexpectedEnd _ | viewOfCommand _
  | noFields | emptyField | malformedAssignment _ | badAssignedColumn _ | unclosedQuote
  | countExpected _ _ | malformedColumn _ | duplicateColumn _ | typeWithArguments _ | badLength _
  | lengthMissing | variantsMissing | unknownType _ => .parse
  | notLoggedIn | roleTooLow _ _ | noDatabaseSelected | accessDenied _ _ _ | readOnlyReplica =>
    .authorization
  | unknownTable _ | tableExists _ | unknownColumn _ _ | badName _ | fieldCount _ _
  | typeMismatch _ _ _ | nullRefused _ | duplicateValue _ _ | missingReference _ _ _ _
  | delimiterInField _ | lineBreakInField _ => .schema
  | tableFileMissing _ | unknownRow _ _ | databaseExists _ | unknownDatabase _ | unknownIndex _ _
  | fileFailure | unreadableFile => .storage
  | transactionActive _ | noTransaction _ | partlyApplied _ _ _ => .transaction
  | unknownRole _ | unknownAggregate _ | aggregateWithoutArgument _ | starOutsideCount _
  | havingWithoutGroups | viewWithoutQuery _ | nestingTooDeep _ => .execution

private def inDefinition (detail : String) : String :=
  s!"Parse error: invalid column definition '{detail}'"

private def violation (detail : String) : String :=
  s!"Schema error: constraint violation - {detail}"

/-- The wording of an error. Failures of files themselves carry no detail. -/
def message : Error → String
  | emptyStatement => "Parse error: empty query"
  | unknownVerb word => s!"Parse error: unknown command '{word}'"
  | unexpectedToken expected found =>
    s!"Parse error: unexpected token '{found}', expected {expected}"
  | unexpectedEnd expected => s!"Parse error: unexpected end of input, expected {expected}"
  | viewOfCommand kind => s!"Parse error: a view must be a SELECT query, got {kind}"
  | noFields => "Parse error: no fields listed before FROM"
  | emptyField => "Parse error: empty field in projection list"
  | malformedAssignment text => s!"Parse error: assignment '{text}' must be column=value"
  | badAssignedColumn name => s!"Parse error: invalid column '{name}' in assignment"
  | unclosedQuote => "Parse error: unterminated quoted value"
  | countExpected clause found => s!"Parse error: {clause} needs a number, got '{found}'"
  | malformedColumn text => inDefinition text
  | duplicateColumn name => inDefinition s!"duplicate column '{name}'"
  | typeWithArguments name => inDefinition s!"type {name} takes no arguments"
  | badLength text => inDefinition s!"CHAR({text})"
  | lengthMissing => inDefinition "CHAR needs exactly one length argument"
  | variantsMissing => inDefinition "ENUM needs at least one variant"
  | unknownType name => inDefinition s!"unknown type {name}"
  | notLoggedIn => "Authorization error: not logged in"
  | roleTooLow required actual =>
    s!"Authorization error: role '{actual}' is below required role '{required}'"
  | noDatabaseSelected => "Authorization error: no database selected"
  | accessDenied table role access =>
    s!"Authorization error: role '{role}' has no {access} permission on table '{table}'"
  | readOnlyReplica => "Authorization error: this node is a read-only replica"
  | unknownTable name => s!"Schema error: table '{name}' not found"
  | tableExists name => s!"Schema error: table '{name}' already exists"
  | unknownColumn column table => s!"Schema error: column '{column}' not found in table '{table}'"
  | badName name => s!"Schema error: invalid name '{name}'"
  | fieldCount expected found => s!"Schema error: expected {expected} fields, got {found}"
  | typeMismatch column expected value =>
    s!"Schema error: value '{value}' is not a valid {expected} for column '{column}'"
  | nullRefused column => s!"Schema error: null value not allowed for column '{column}'"
  | duplicateValue value column =>
    violation s!"duplicate value '{value}' for unique column '{column}'"
  | missingReference value column table referenced =>
    violation s!"value '{value}' of '{column}' has no match in {table}.{referenced}"
  | delimiterInField column => violation s!"value for '{column}' may not contain '|'"
  | lineBreakInField column => violation s!"value for '{column}' may not contain a line break"
  | tableFileMissing table => s!"Storage error: table file '{table}' not found"
  | unknownRow table id => s!"Storage error: row '{id}' not found in table '{table}'"
  | databaseExists name => s!"Storage error: database '{name}' already exists"
  | unknownDatabase name => s!"Storage error: database '{name}' not found"
  | unknownIndex table column => s!"Storage error: index on '{table}.{column}' not found"
  | fileFailure => "I/O error"
  | unreadableFile => "Serialization error"
  | transactionActive user => s!"Transaction error: '{user}' already has an active transaction"
  | noTransaction user => s!"Transaction error: '{user}' has no active transaction"
  | partlyApplied transaction cause _ =>
    let reason := cause.message
    s!"Transaction error: transaction {transaction} was logged but failed to apply: {reason}"
  | unknownRole name => s!"Execution error: unknown role '{name}'"
  | unknownAggregate name => s!"Execution error: unknown aggregate function '{name}'"
  | aggregateWithoutArgument text => s!"Execution error: aggregate '{text}' needs an argument"
  | starOutsideCount text => s!"Execution error: only COUNT accepts '*', got '{text}'"
  | havingWithoutGroups => "Execution error: HAVING needs GROUP BY or an aggregate field"
  | viewWithoutQuery name => s!"Execution error: view '{name}' does not hold a SELECT query"
  | nestingTooDeep limit =>
    s!"Execution error: nesting depth {limit} exceeded (recursive view or trigger?)"

end Error

end FlatFileDb
