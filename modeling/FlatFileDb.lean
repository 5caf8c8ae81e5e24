import FlatFileDb.Action
import FlatFileDb.Change
import FlatFileDb.Condition
import FlatFileDb.Database
import FlatFileDb.Disk.Basic
import FlatFileDb.Disk.Path
import FlatFileDb.Engine.Define
import FlatFileDb.Engine.Execute
import FlatFileDb.Engine.Job
import FlatFileDb.Engine.Query
import FlatFileDb.Engine.Settle
import FlatFileDb.Engine.State
import FlatFileDb.Engine.Transaction
import FlatFileDb.Engine.Write
import FlatFileDb.Error
import FlatFileDb.Grouping
import FlatFileDb.Index.Data
import FlatFileDb.Index.File
import FlatFileDb.Index.Kind
import FlatFileDb.Json.Basic
import FlatFileDb.Json.Parser
import FlatFileDb.Json.Printer
import FlatFileDb.Keyed
import FlatFileDb.Log.Entry
import FlatFileDb.Log.File
import FlatFileDb.Node
import FlatFileDb.Number.Binary64
import FlatFileDb.Number.Integer
import FlatFileDb.Number.Shortest
import FlatFileDb.Operation
import FlatFileDb.Outcome
import FlatFileDb.Relation.Aggregate
import FlatFileDb.Relation.Answer
import FlatFileDb.Relation.Basic
import FlatFileDb.Relation.Join
import FlatFileDb.Relation.Projection
import FlatFileDb.Role
import FlatFileDb.Row
import FlatFileDb.Schema.Column
import FlatFileDb.Schema.DataType
import FlatFileDb.Schema.Definition
import FlatFileDb.Schema.Name
import FlatFileDb.Schema.Stored
import FlatFileDb.Schema.Table
import FlatFileDb.Settings
import FlatFileDb.Shell.Grid
import FlatFileDb.Shell.Session
import FlatFileDb.Shell.Texts
import FlatFileDb.Shell.Typing
import FlatFileDb.Sort
import FlatFileDb.Statement.Clause
import FlatFileDb.Statement.Command
import FlatFileDb.Statement.Cursor
import FlatFileDb.Statement.Keyword
import FlatFileDb.Statement.Parser
import FlatFileDb.Statement.Token
import FlatFileDb.Table
import FlatFileDb.Text.Alphanumeric
import FlatFileDb.Text.AlphanumericTable
import FlatFileDb.Text.Blank
import FlatFileDb.Text.Bytes
import FlatFileDb.Text.Case
import FlatFileDb.Text.CaseTable
import FlatFileDb.Text.Distinct
import FlatFileDb.Text.Grapheme
import FlatFileDb.Text.GraphemeTable
import FlatFileDb.Text.Lines
import FlatFileDb.Text.Occurrence
import FlatFileDb.Trigger
import FlatFileDb.Value
import FlatFileDb.View
import FlatFileDb.Main
import FlatFileDb.Proofs.Json
import FlatFileDb.Proofs.Schema
import FlatFileDb.Proofs.Rows
import FlatFileDb.Proofs.Disk
import FlatFileDb.Proofs.Layout
import FlatFileDb.Proofs.Statement
import FlatFileDb.Proofs.Effect
import FlatFileDb.Proofs.Maintain
import FlatFileDb.Proofs.Run
import FlatFileDb.Proofs.Catalog
import FlatFileDb.Proofs.Invariant
import FlatFileDb.Proofs.Application
import FlatFileDb.Proofs.Buffer
import FlatFileDb.Proofs.Image
import FlatFileDb.Proofs.Stored
import FlatFileDb.Proofs.Unique
import FlatFileDb.Proofs.Narrowing
import FlatFileDb.Proofs.Single
import FlatFileDb.Proofs.Prefix
import FlatFileDb.Proofs.Journal
import FlatFileDb.Proofs.Undisturbed
import FlatFileDb.Proofs.Recall
import FlatFileDb.Proofs.Parallel
import FlatFileDb.Proofs.Rollback
import FlatFileDb.Proofs.Replica
import FlatFileDb.Proofs.Form
import FlatFileDb.Proofs.Failure
import FlatFileDb.Proofs.Naming
import FlatFileDb.Proofs.View
import FlatFileDb.Proofs.Permission
import FlatFileDb.Proofs.Secrecy
import FlatFileDb.Proofs.Posting
import FlatFileDb.Proofs.Patching
import FlatFileDb.Proofs.Tracking
import FlatFileDb.Proofs.Searching
import FlatFileDb.Proofs.Lockstep
import FlatFileDb.Proofs.Queue
import FlatFileDb.Proofs.Reopening
import FlatFileDb.Proofs.Capture
import FlatFileDb.Proofs.Cascade
import FlatFileDb.Proofs.Convergence
import FlatFileDb.Proofs.Words
import FlatFileDb.Proofs.Remainder
import FlatFileDb.Proofs.Spelling
import FlatFileDb.Proofs.Verbatim
import FlatFileDb.Proofs.Printing
import FlatFileDb.Proofs.Reading
import FlatFileDb.Proofs.Listing
import FlatFileDb.Proofs.Insertion
import FlatFileDb.Proofs.Filling
import FlatFileDb.Proofs.Rebuilding
import FlatFileDb.Proofs.Recovery
import FlatFileDb.Proofs.RowList
import FlatFileDb.Proofs.TriggerStore
import FlatFileDb.Proofs.KeyLookup
import FlatFileDb.Proofs.Causes
import FlatFileDb.Proofs.Furnishing
import FlatFileDb.Proofs.TableFiles
import FlatFileDb.Proofs.Consistency
import FlatFileDb.Proofs.Width
import FlatFileDb.Proofs.Joining
import FlatFileDb.Proofs.Defining
import FlatFileDb.Proofs.Direct
import FlatFileDb.Proofs.Agreement
import FlatFileDb.Proofs.Nesting
import FlatFileDb.Proofs.OuterJoin
import FlatFileDb.Proofs.Meaning
import FlatFileDb.Proofs.Paging
import FlatFileDb.Proofs.Partition
import FlatFileDb.Proofs.LooseOrder
import FlatFileDb.Proofs.Extremes
import FlatFileDb.Proofs.Duplicates
import FlatFileDb.Proofs.Validation
import FlatFileDb.Proofs.ColumnText
import FlatFileDb.Proofs.DefinitionText
import FlatFileDb.Proofs.Lexeme
import FlatFileDb.Proofs.Preview
import FlatFileDb.Proofs.Quoted
import FlatFileDb.Proofs.Literal
import FlatFileDb.Proofs.Clauses
import FlatFileDb.Proofs.Chain
import FlatFileDb.Proofs.Calendar
import FlatFileDb.Proofs.UpToDate
