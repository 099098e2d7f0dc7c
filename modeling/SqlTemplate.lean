import SqlTemplate.Text.Blank
import SqlTemplate.Text.Line
import SqlTemplate.Text.Alphanumeric
import SqlTemplate.Text.Padding
import SqlTemplate.Number.Layout
import SqlTemplate.Calendar
import SqlTemplate.Json
import SqlTemplate.Template.Validation
import SqlTemplate.Adapter
import SqlTemplate.QueryFile
import SqlTemplate.Json.Parameters
import SqlTemplate.Json.Writer
import SqlTemplate.Settings
import SqlTemplate.Command
import SqlTemplate.Main
import SqlTemplate.Proofs.Grammar
import SqlTemplate.Proofs.Scanning
import SqlTemplate.Proofs.Literals
import SqlTemplate.Proofs.Outcome
import SqlTemplate.Proofs.Validation
import SqlTemplate.Proofs.Resolution
import SqlTemplate.Proofs.Rendering
import SqlTemplate.Proofs.Sufficiency
import SqlTemplate.Proofs.Correspondence
import SqlTemplate.Proofs.FillingOrder
import SqlTemplate.Proofs.Renaming
import SqlTemplate.Proofs.Lexing
import SqlTemplate.Proofs.PlainCode
import SqlTemplate.Proofs.Skeleton
import SqlTemplate.Proofs.FaultOrder
import SqlTemplate.Proofs.Elements
import SqlTemplate.Proofs.Sequences
import SqlTemplate.Proofs.Columns
import SqlTemplate.Proofs.Agreement
import SqlTemplate.Proofs.ConditionKeys
import SqlTemplate.Proofs.Lines
import SqlTemplate.Proofs.QueryBlocks
import SqlTemplate.Proofs.QueryFileText
import SqlTemplate.Proofs.Spans
import SqlTemplate.Proofs.Identifiers
import SqlTemplate.Proofs.Spelling
import SqlTemplate.Proofs.SchemaOrder
import SqlTemplate.Proofs.Flattening
import SqlTemplate.Proofs.Fragments
import SqlTemplate.Proofs.OtherAdapters
import SqlTemplate.Proofs.InsertionOrder
import SqlTemplate.Proofs.MarkerLines
import SqlTemplate.Proofs.TableLayout
import SqlTemplate.Proofs.IntegerText
