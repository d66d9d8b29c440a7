import Lalr.Automaton.ActionTable
import Lalr.Automaton.First
import Lalr.Automaton.Lookahead
import Lalr.Automaton.States
import Lalr.Automaton.TokenSet
import Lalr.Check
import Lalr.CommandLine
import Lalr.Config
import Lalr.Config.File
import Lalr.Decimal.Shortest
import Lalr.Diagnostic
import Lalr.Duration
import Lalr.Files.Source
import Lalr.Files.Tree
import Lalr.FlatGrammar.Basic
import Lalr.FlatGrammar.Flatten
import Lalr.FlatGrammar.Numbering
import Lalr.FlatGrammar.Terminal
import Lalr.Generate
import Lalr.Grammar.Basic
import Lalr.Grammar.Check
import Lalr.Grammar.Error
import Lalr.Grammar.Rule
import Lalr.Grammar.Token
import Lalr.Json.Basic
import Lalr.Json.Number
import Lalr.Json.Parser
import Lalr.Json.Pointer
import Lalr.Json.Printer
import Lalr.Json.Shape
import Lalr.Language
import Lalr.Lexer
import Lalr.Main
import Lalr.OneScript.Grammar
import Lalr.OneScript.Keyword
import Lalr.OneScript.Language
import Lalr.OneScript.Scanner
import Lalr.Output
import Lalr.Parser.Basic
import Lalr.Parser.Config
import Lalr.Parser.Document
import Lalr.Parser.Json
import Lalr.Parser.Lexeme
import Lalr.Parser.Recovery
import Lalr.Parser.Run
import Lalr.Parser.State
import Lalr.Pattern.Basic
import Lalr.Pattern.Bracket
import Lalr.Pattern.Escape
import Lalr.Pattern.Flags
import Lalr.Pattern.Match
import Lalr.Pattern.Parser
import Lalr.Pattern.Program
import Lalr.Proofs.Automaton.Canonical
import Lalr.Proofs.Automaton.Closure
import Lalr.Proofs.Automaton.Exploration
import Lalr.Proofs.Automaton.First
import Lalr.Proofs.Automaton.Lookahead
import Lalr.Proofs.Automaton.Neighbours
import Lalr.Proofs.Automaton.Path
import Lalr.Proofs.Automaton.Precedence
import Lalr.Proofs.Automaton.Propagation
import Lalr.Proofs.Automaton.Reduction
import Lalr.Proofs.Automaton.Rounds
import Lalr.Proofs.Automaton.Settling
import Lalr.Proofs.Automaton.Table
import Lalr.Proofs.Automaton.Validity
import Lalr.Proofs.Except
import Lalr.Proofs.FlatGrammar.Completion
import Lalr.Proofs.FlatGrammar.Derivation
import Lalr.Proofs.FlatGrammar.DynamicPrecedence
import Lalr.Proofs.FlatGrammar.Expansion
import Lalr.Proofs.FlatGrammar.Flattening
import Lalr.Proofs.FlatGrammar.Language
import Lalr.Proofs.FlatGrammar.LexicalTable
import Lalr.Proofs.FlatGrammar.Numbering
import Lalr.Proofs.FlatGrammar.Recognition
import Lalr.Proofs.FlatGrammar.Repetition
import Lalr.Proofs.FlatGrammar.Token
import Lalr.Proofs.FlatGrammar.Transcription
import Lalr.Proofs.FlatGrammar.Written
import Lalr.Proofs.Language.Arithmetic
import Lalr.Proofs.Language.External
import Lalr.Proofs.Language.Generated
import Lalr.Proofs.Language.Keyword
import Lalr.Proofs.Language.Kind
import Lalr.Proofs.Language.Lexer
import Lalr.Proofs.Language.Loading
import Lalr.Proofs.OneScript.Bilingual
import Lalr.Proofs.OneScript.Border
import Lalr.Proofs.OneScript.Characters
import Lalr.Proofs.OneScript.Context
import Lalr.Proofs.OneScript.Delimiters
import Lalr.Proofs.OneScript.Examined
import Lalr.Proofs.OneScript.Incremental
import Lalr.Proofs.OneScript.Ladder
import Lalr.Proofs.OneScript.Locality
import Lalr.Proofs.OneScript.Regions
import Lalr.Proofs.OneScript.Replacement
import Lalr.Proofs.OneScript.Scanner
import Lalr.Proofs.OneScript.Spacing
import Lalr.Proofs.OneScript.Spelling
import Lalr.Proofs.OneScript.StringLiteral
import Lalr.Proofs.OneScript.Token
import Lalr.Proofs.Operators.Climbing
import Lalr.Proofs.Operators.Grammar
import Lalr.Proofs.Operators.Ladder
import Lalr.Proofs.Operators.Parsing
import Lalr.Proofs.Operators.States
import Lalr.Proofs.Operators.Table
import Lalr.Proofs.Operators.Written
import Lalr.Proofs.Parser.Adjacency
import Lalr.Proofs.Parser.Clean
import Lalr.Proofs.Parser.Composition
import Lalr.Proofs.Parser.Display
import Lalr.Proofs.Parser.Edges
import Lalr.Proofs.Parser.Effect
import Lalr.Proofs.Parser.Holding
import Lalr.Proofs.Parser.Leaves
import Lalr.Proofs.Parser.Lexing
import Lalr.Proofs.Parser.Location
import Lalr.Proofs.Parser.Lockstep
import Lalr.Proofs.Parser.Lookahead
import Lalr.Proofs.Parser.Machine
import Lalr.Proofs.Parser.Missing
import Lalr.Proofs.Parser.Parts
import Lalr.Proofs.Parser.Placement
import Lalr.Proofs.Parser.Promise
import Lalr.Proofs.Parser.Reading
import Lalr.Proofs.Parser.Reduction
import Lalr.Proofs.Parser.Renewal
import Lalr.Proofs.Parser.Replay
import Lalr.Proofs.Parser.Rereading
import Lalr.Proofs.Parser.Resolution
import Lalr.Proofs.Parser.Result
import Lalr.Proofs.Parser.Reuse
import Lalr.Proofs.Parser.Run
import Lalr.Proofs.Parser.Sentence
import Lalr.Proofs.Parser.Session
import Lalr.Proofs.Parser.Simulation
import Lalr.Proofs.Parser.Stack
import Lalr.Proofs.Parser.Takeover
import Lalr.Proofs.Parser.Termination
import Lalr.Proofs.Parser.Threading
import Lalr.Proofs.Parser.Tiling
import Lalr.Proofs.Parser.View
import Lalr.Proofs.Parser.Waiting
import Lalr.Proofs.Parser.Weight
import Lalr.Proofs.Parser.Wording
import Lalr.Proofs.Tables.Artifact
import Lalr.Proofs.Tables.Codec
import Lalr.Proofs.Text.Bytes
import Lalr.Proofs.Text.Position
import Lalr.Proofs.Text.Runs
import Lalr.Proofs.Tree.Bare
import Lalr.Proofs.Tree.Candidate
import Lalr.Proofs.Tree.Edit
import Lalr.Proofs.Tree.Outline
import Lalr.Proofs.Tree.Report
import Lalr.Proofs.Tree.Shift
import Lalr.Proofs.Tree.View
import Lalr.Scanner
import Lalr.Tables.Artifact
import Lalr.Tables.Basic
import Lalr.Tables.Codec
import Lalr.Tables.Error
import Lalr.Tables.Json
import Lalr.Tables.Validate
import Lalr.Text.Blank
import Lalr.Text.CaseFold
import Lalr.Text.CaseRun
import Lalr.Text.Category
import Lalr.Text.Digits
import Lalr.Text.Encoding
import Lalr.Text.LowerCase
import Lalr.Text.Position
import Lalr.Text.Printable
import Lalr.Text.Property
import Lalr.Text.Property.Age
import Lalr.Text.Property.Binary
import Lalr.Text.Property.Category
import Lalr.Text.Property.Script
import Lalr.Text.Property.ScriptExtension
import Lalr.Text.Property.Segment
import Lalr.Text.Property.Table
import Lalr.Text.Ranges
import Lalr.Text.Utf8
import Lalr.Text.Word
import Lalr.Toml.Basic
import Lalr.Toml.Parser
import Lalr.Toml.Printer
import Lalr.Toml.Scan
import Lalr.Tree.Edit
import Lalr.Tree.Node
import Lalr.Tree.Subtree
