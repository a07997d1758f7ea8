import ParenLambda.Assembly
import ParenLambda.Backend
import ParenLambda.Backend.Catalogue
import ParenLambda.Backend.Inlining
import ParenLambda.Backend.Listing
import ParenLambda.Backend.Named
import ParenLambda.Backend.Summary
import ParenLambda.BaseLibrary
import ParenLambda.Command
import ParenLambda.CommandLine
import ParenLambda.CommandLine.Grammar
import ParenLambda.CommandLine.Help
import ParenLambda.CommandLine.Mistake
import ParenLambda.CommandLine.Read
import ParenLambda.CommandLine.Reading
import ParenLambda.Compile
import ParenLambda.Evaluation
import ParenLambda.Fault
import ParenLambda.Form
import ParenLambda.Form.Read
import ParenLambda.Host.Action
import ParenLambda.Host.FileTree
import ParenLambda.Host.Perform
import ParenLambda.Host.World
import ParenLambda.Json
import ParenLambda.Json.Tree
import ParenLambda.Main
import ParenLambda.Name
import ParenLambda.Prelude
import ParenLambda.Rendering.Outline
import ParenLambda.Rendering.Rules
import ParenLambda.Rendering.Walk
import ParenLambda.Report
import ParenLambda.Report.Label
import ParenLambda.Report.Styled
import ParenLambda.Settings
import ParenLambda.Settings.Load
import ParenLambda.Term
import ParenLambda.Term.OfForm
import ParenLambda.Term.Worklist
import ParenLambda.Terminal
import ParenLambda.Text.Blank
import ParenLambda.Text.Bytes
import ParenLambda.Text.CharSet
import ParenLambda.Text.Columns
import ParenLambda.Text.Identifier
import ParenLambda.Text.Lines
import ParenLambda.Text.Reader
import ParenLambda.Text.Similarity
import ParenLambda.Token
import ParenLambda.Token.Scan
import ParenLambda.Toml.Document
import ParenLambda.Toml.Scalar
import ParenLambda.Toml.Table
import ParenLambda.Toml.Value
import ParenLambda.Proofs.Evaluation.Derivation
import ParenLambda.Proofs.Induction
import ParenLambda.Proofs.Inlining.Expansion
import ParenLambda.Proofs.Inlining.Simulation
import ParenLambda.Proofs.Reading.Steps
import ParenLambda.Proofs.Scanning.Steps
import ParenLambda.Proofs.Displacement
import ParenLambda.Proofs.Shifting
import ParenLambda.Proofs.Worklist
import ParenLambda.Proofs.Concatenation
import ParenLambda.Proofs.Names
import ParenLambda.Proofs.Scanning.Words
import ParenLambda.Proofs.Reading.Flatten
import ParenLambda.Proofs.Printing
import ParenLambda.Proofs.Scanning.Pieces
import ParenLambda.Proofs.Scanning.Comments
import ParenLambda.Proofs.Scanning.Exact
import ParenLambda.Proofs.Reading.Exact
import ParenLambda.Proofs.Arity
import ParenLambda.Proofs.Rendering.Walk
import ParenLambda.Proofs.Inlining.Texts
import ParenLambda.Proofs.Nesting
import ParenLambda.Proofs.Reading.Places
import ParenLambda.Proofs.Reading.Earliest
import ParenLambda.Proofs.Scanning.Slices
import ParenLambda.Proofs.Spans
import ParenLambda.Proofs.Reproduction
import ParenLambda.Proofs.Renaming
import ParenLambda.Proofs.Escaping
import ParenLambda.Proofs.Identifiers
import ParenLambda.Proofs.CanonicalNames
import ParenLambda.Proofs.Rendering.Calls
import ParenLambda.Proofs.Rendering.Juxtaposition
import ParenLambda.Proofs.Rendering.Sequences
import ParenLambda.Proofs.Rendering.NamedSequences
import ParenLambda.Proofs.Rendering.Statements
import ParenLambda.Proofs.Rendering.Alphabet
import ParenLambda.Proofs.Rendering.Recovery
import ParenLambda.Proofs.Assembly
import ParenLambda.Proofs.Labels
import ParenLambda.Proofs.SingleLine
import ParenLambda.Proofs.Evaluation.Safety
import ParenLambda.Proofs.Scanning.Gaps
import ParenLambda.Proofs.Layout
import ParenLambda.Proofs.Respelling
import ParenLambda.Proofs.Evaluation.Attaining
import ParenLambda.Proofs.Evaluation.Running
import ParenLambda.Proofs.Evaluation.Interchange
import ParenLambda.Proofs.BaseLibrary.Terms
import ParenLambda.Proofs.BaseLibrary.Arithmetic
import ParenLambda.Proofs.BaseLibrary.Sources
import ParenLambda.Proofs.BaseLibrary.Booleans
import ParenLambda.Proofs.BaseLibrary.Comparisons
import ParenLambda.Proofs.BaseLibrary.FixedPoint
import ParenLambda.Proofs.BaseLibrary.Lists
import ParenLambda.Proofs.BaseLibrary.Filtering
import ParenLambda.Proofs.Inlining.Unused
import ParenLambda.Proofs.Host.Runs
import ParenLambda.Proofs.Host.Files
import ParenLambda.Proofs.Command.Courses
import ParenLambda.Proofs.Command.AllOrNothing
