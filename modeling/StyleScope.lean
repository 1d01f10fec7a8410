import StyleScope.Binary64
import StyleScope.Diagnostic.Basic
import StyleScope.Diagnostic.Encode
import StyleScope.Json.Basic
import StyleScope.Json.Brackets
import StyleScope.Json.Direct
import StyleScope.Json.Fault
import StyleScope.Json.Ignored
import StyleScope.Json.Nesting
import StyleScope.Json.Numeral
import StyleScope.Json.Outcome
import StyleScope.Json.Quoted
import StyleScope.Json.Reader
import StyleScope.Json.Shape
import StyleScope.Json.Values
import StyleScope.Mode.Read
import StyleScope.Proofs.Diagnostic.ReadBack
import StyleScope.Proofs.Diagnostic.Views
import StyleScope.Proofs.Json.CodeUnits
import StyleScope.Proofs.Json.Documents
import StyleScope.Proofs.Json.Gives
import StyleScope.Proofs.Json.Ignoring
import StyleScope.Proofs.Json.Letters
import StyleScope.Proofs.Json.Levels
import StyleScope.Proofs.Json.Members
import StyleScope.Proofs.Json.Numbers
import StyleScope.Proofs.Json.OpenBrackets
import StyleScope.Proofs.Json.Reading
import StyleScope.Proofs.Json.Records
import StyleScope.Proofs.Json.Scanned
import StyleScope.Proofs.Json.Spelling
import StyleScope.Proofs.Json.Success
import StyleScope.Proofs.Json.WellFormed
import StyleScope.Proofs.Json.Writing
import StyleScope.Proofs.Mode.Accepted
import StyleScope.Proofs.Mode.Asked
import StyleScope.Proofs.Reports
import StyleScope.Proofs.Scope.Bounded
import StyleScope.Proofs.Scope.Enclosing
import StyleScope.Proofs.Scope.Findings
import StyleScope.Proofs.Scope.Modes
import StyleScope.Proofs.Scope.Moments
import StyleScope.Proofs.Scope.Reuse
import StyleScope.Proofs.Scope.Sessions
import StyleScope.Proofs.Scope.Sinks
import StyleScope.Proofs.Scope.Skeleton
import StyleScope.Proofs.Scope.Walks
import StyleScope.Proofs.Sheet.Acceptance
import StyleScope.Proofs.Sheet.Alike
import StyleScope.Proofs.Sheet.Decoding
import StyleScope.Proofs.Sheet.Edits
import StyleScope.Proofs.Sheet.Growth
import StyleScope.Proofs.Sheet.Keeping
import StyleScope.Proofs.Sheet.KeptRecords
import StyleScope.Proofs.Sheet.Levels
import StyleScope.Proofs.Sheet.Meaning
import StyleScope.Proofs.Sheet.Outermost
import StyleScope.Proofs.Sheet.Outline
import StyleScope.Proofs.Sheet.Placement
import StyleScope.Proofs.Sheet.Respelled
import StyleScope.Proofs.Sheet.RoundTrip
import StyleScope.Proofs.Sheet.Schema
import StyleScope.Proofs.Sheet.Spelled
import StyleScope.Proofs.Sheet.WellFormed
import StyleScope.Proofs.Sheet.Written
import StyleScope.Proofs.Walk.Callbacks
import StyleScope.Proofs.Walk.Depth
import StyleScope.Proofs.Walk.Discipline
import StyleScope.Proofs.Walk.Moments
import StyleScope.Proofs.Walk.Occurrence
import StyleScope.Proofs.Walk.Parts
import StyleScope.Proofs.Walk.Pruning
import StyleScope.Proofs.Walk.Runs
import StyleScope.Proofs.Walk.Skipping
import StyleScope.Proofs.Walk.Tour
import StyleScope.Proofs.Walk.Values
import StyleScope.Proofs.Walk.Visits
import StyleScope.Report
import StyleScope.Scope.Session
import StyleScope.Scope.Validator
import StyleScope.Sheet.Basic
import StyleScope.Sheet.Decode
import StyleScope.Sheet.Encode
import StyleScope.Sheet.Equality
import StyleScope.Sheet.Nesting
import StyleScope.Sheet.Read
import StyleScope.Text.Printable
import StyleScope.Walk.Record
