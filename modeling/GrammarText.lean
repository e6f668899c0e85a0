import GrammarText.Builtin
import GrammarText.CommandLine.Arguments
import GrammarText.CommandLine.Folder
import GrammarText.CommandLine.Performance
import GrammarText.CommandLine.Run
import GrammarText.Document
import GrammarText.File
import GrammarText.Grouping
import GrammarText.Lexing
import GrammarText.Line.Body
import GrammarText.Line.Definition
import GrammarText.Line.Shape
import GrammarText.Line.Tokens
import GrammarText.Log
import GrammarText.Logged
import GrammarText.Main
import GrammarText.Proofs.CommandLine.Arguments
import GrammarText.Proofs.CommandLine.Comments
import GrammarText.Proofs.CommandLine.Folder
import GrammarText.Proofs.CommandLine.Listing
import GrammarText.Proofs.CommandLine.Normalizing
import GrammarText.Proofs.CommandLine.Outcome
import GrammarText.Proofs.CommandLine.Warnings
import GrammarText.Proofs.CommandLine.Writing
import GrammarText.Proofs.Document.CoreLines
import GrammarText.Proofs.Document.FirstFlaw
import GrammarText.Proofs.Document.Forms
import GrammarText.Proofs.Document.Grouping
import GrammarText.Proofs.Document.Routes
import GrammarText.Proofs.Document.RuleLines
import GrammarText.Proofs.Document.Segments
import GrammarText.Proofs.Grouping.Bars
import GrammarText.Proofs.Grouping.Extensions
import GrammarText.Proofs.Grouping.Grammar
import GrammarText.Proofs.Grouping.Items
import GrammarText.Proofs.Grouping.Machine
import GrammarText.Proofs.Line.Flaws
import GrammarText.Proofs.Line.Forms
import GrammarText.Proofs.Line.Items
import GrammarText.Proofs.Line.LongestFront
import GrammarText.Proofs.Line.Scanner
import GrammarText.Proofs.Line.Spacing
import GrammarText.Proofs.Log
import GrammarText.Proofs.Log.Threshold
import GrammarText.Proofs.Log.Trail
import GrammarText.Proofs.Outcomes
import GrammarText.Proofs.Rule.Printing
import GrammarText.Proofs.Rule.ReadBack
import GrammarText.Proofs.RuleTable.Index
import GrammarText.Proofs.RuleTable.Lookup
import GrammarText.Proofs.RuleTable.Parts
import GrammarText.Proofs.RuleTable.Reordering
import GrammarText.Proofs.RuleTable.Repeats
import GrammarText.Proofs.RuleTable.RoundTrip
import GrammarText.Proofs.RuleTable.Undefined
import GrammarText.Proofs.Session
import GrammarText.Proofs.Text.Encoding
import GrammarText.Proofs.Text.LineCuts
import GrammarText.Proofs.Text.NormalLines
import GrammarText.Proofs.Text.Trimming
import GrammarText.Reading
import GrammarText.Rule
import GrammarText.RuleName
import GrammarText.RuleTable
import GrammarText.Session
import GrammarText.Settings
import GrammarText.Text.Alphanumeric
import GrammarText.Text.Blank
import GrammarText.Text.Cut
import GrammarText.Text.Lines
import GrammarText.Text.Quoted
import GrammarText.Text.Range
import GrammarText.Text.Stream
import GrammarText.Token
import GrammarText.Violation
