import StructuredCall.CommandLine.Judge
import StructuredCall.Main
import StructuredCall.Proofs.Conservative
import StructuredCall.Proofs.Dashes
import StructuredCall.Proofs.Diagnostics
import StructuredCall.Proofs.Dialect
import StructuredCall.Proofs.Dispatch.Account
import StructuredCall.Proofs.Dispatch.Cancellation
import StructuredCall.Proofs.Dispatch.Schedule
import StructuredCall.Proofs.Dispatch.Timed
import StructuredCall.Proofs.FirstError
import StructuredCall.Proofs.Json.Real
import StructuredCall.Proofs.Listing
import StructuredCall.Proofs.Order
import StructuredCall.Proofs.Refusal
import StructuredCall.Proofs.Registry
import StructuredCall.Proofs.Rewriting
import StructuredCall.Proofs.Literal.Decoded
import StructuredCall.Proofs.Literal.Number
import StructuredCall.Proofs.Literal.Quoting
import StructuredCall.Proofs.Literal.Unquoting
import StructuredCall.Proofs.Literal.Spelling
import StructuredCall.Proofs.Literal.Terminators
import StructuredCall.Proofs.Literal.Enclosure
import StructuredCall.Proofs.Literal.Reading
import StructuredCall.Proofs.Literal.Encodings
import StructuredCall.Proofs.Literal.Range
import StructuredCall.Proofs.Literal.Repetition
import StructuredCall.Proofs.Literal.ListedSets
import StructuredCall.Proofs.Program.Completeness
import StructuredCall.Proofs.Program.Outline
import StructuredCall.Proofs.Program.Lines
import StructuredCall.Proofs.Program.Template
import StructuredCall.Proofs.Program.Delimiters
import StructuredCall.Proofs.Program.Generation
import StructuredCall.Proofs.Program.Agreement
import StructuredCall.Proofs.Program.Fallback
import StructuredCall.Proofs.Program.Isolation
import StructuredCall.Proofs.Program.Clash
import StructuredCall.Proofs.Program.Stub
import StructuredCall.Proofs.Program.Inputs
import StructuredCall.Proofs.Program.Entry
import StructuredCall.Proofs.Program.Body
import StructuredCall.Proofs.Program.Shadowing
import StructuredCall.Proofs.Program.Spacing
