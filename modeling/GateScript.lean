import GateScript.Circuit.Basic
import GateScript.Circuit.Operation
import GateScript.Command.CompileFile
import GateScript.Command.Disk
import GateScript.Command.Options
import GateScript.Command.Path
import GateScript.Command.Serve
import GateScript.Compile
import GateScript.Decimal.Binary64
import GateScript.Decimal.Numeral
import GateScript.Decimal.Shortest
import GateScript.Editor.Catalogue
import GateScript.Editor.Diagnostic
import GateScript.Editor.Hover
import GateScript.Editor.Session
import GateScript.Lower.Error
import GateScript.Lower.Expansion
import GateScript.Lower.Gate
import GateScript.Lower.Outcome
import GateScript.Lower.Run
import GateScript.Lower.Scope
import GateScript.Main
import GateScript.Number
import GateScript.Ordered
import GateScript.Output.Json
import GateScript.Output.Language
import GateScript.Output.Render
import GateScript.Program.Build
import GateScript.Program.Inline
import GateScript.Program.Node
import GateScript.Program.Value
import GateScript.Proofs.Decimal.Scripts
import GateScript.Proofs.Decimal.Natural
import GateScript.Proofs.Lower.Allocation
import GateScript.Proofs.Lower.BoxBody
import GateScript.Proofs.Lower.Branches
import GateScript.Proofs.Lower.Call
import GateScript.Proofs.Lower.Execution
import GateScript.Proofs.Lower.Growth
import GateScript.Proofs.Lower.Inlining
import GateScript.Proofs.Lower.Machine
import GateScript.Proofs.Lower.Measurement
import GateScript.Proofs.Lower.Outcome
import GateScript.Proofs.Lower.Pipeline
import GateScript.Proofs.Lower.Record
import GateScript.Proofs.Lower.Refusal
import GateScript.Proofs.Lower.Reversal
import GateScript.Proofs.Lower.Stopping
import GateScript.Proofs.Lower.Termination
import GateScript.Proofs.Program.Building
import GateScript.Proofs.Program.Cycles
import GateScript.Proofs.Program.Numerals
import GateScript.Proofs.Program.Printing
import GateScript.Proofs.Program.RoundTrip
import GateScript.Proofs.Source.Accepting
import GateScript.Proofs.Source.Following
import GateScript.Proofs.Source.Grammar
import GateScript.Proofs.Source.Layout
import GateScript.Proofs.Source.Pieces
import GateScript.Proofs.Source.Reading
import GateScript.Proofs.Source.Scanning
import GateScript.Proofs.Source.Soundness
import GateScript.Proofs.Source.Spelling
import GateScript.Source.GrammarFile
import GateScript.Source.Parse
import GateScript.Source.Reader
import GateScript.Source.Scan
import GateScript.Source.Statement
import GateScript.Source.Terminal
import GateScript.Source.Token
import GateScript.Source.Tree
import GateScript.Text.Alphanumeric
import GateScript.Text.Blank
import GateScript.Text.Digit
import GateScript.Text.Lines
import GateScript.Text.Printable
import GateScript.Text.Quoted
import GateScript.Text.Range
import GateScript.Text.Upper
import GateScript.Text.Utf8
import GateScript.Wire
import GateScript.Proofs.Lower.Boxes
import GateScript.Proofs.Source.Moving
import GateScript.Proofs.Source.LineEnds
import GateScript.Proofs.Source.Joining
import GateScript.Proofs.Program.Joining
import GateScript.Proofs.Lower.DefaultBits
import GateScript.Proofs.Lower.Alike
import GateScript.Proofs.Lower.Likeness
import GateScript.Proofs.Lower.Renaming
import GateScript.Proofs.Lower.Unreached
import GateScript.Proofs.Lower.QubitForms
import GateScript.Proofs.Source.LongestMatch
import GateScript.Proofs.Source.Pairing
import GateScript.Proofs.Source.Operands
import GateScript.Proofs.Source.QubitWord
import GateScript.Proofs.Program.QubitForms
import GateScript.Proofs.Lower.Contribution
import GateScript.Proofs.Lower.TargetNames
import GateScript.Proofs.Lower.Lifting
import GateScript.Proofs.Source.Roles
import GateScript.Proofs.Program.Meaning
import GateScript.Proofs.Program.BareNames
import GateScript.Proofs.Lower.Destinations
import GateScript.Proofs.Lower.Preflight
import GateScript.Proofs.Lower.Separation
import GateScript.Proofs.Lower.Repetition
import GateScript.Proofs.Source.Comments
import GateScript.Proofs.Source.Completion
import GateScript.Proofs.Source.FirstError
import GateScript.Proofs.Editor.Diagnostics
import GateScript.Proofs.Editor.Hovering
import GateScript.Proofs.Editor.Quotation
import GateScript.Proofs.Lower.ArgumentCount
import GateScript.Proofs.Command.Arguments
import GateScript.Proofs.Command.Delivery
import GateScript.Proofs.Lower.Operands
