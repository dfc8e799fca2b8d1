import BasicLang.Number.Style
import BasicLang.Number.Random
import BasicLang.Number.Reading
import BasicLang.Text.Blank
import BasicLang.Text.Case
import BasicLang.Text.Quoted
import BasicLang.Text.WordChar
import BasicLang.Text.Substring
import BasicLang.Text.Template
import BasicLang.Json
import BasicLang.Arithmetic
import BasicLang.Lexer
import BasicLang.Syntax.BlockGrammar
import BasicLang.Builtin
import BasicLang.Typing.Program
import BasicLang.Code.Program
import BasicLang.Device.Bench
import BasicLang.Machine.OpenFile
import BasicLang.Machine.Fault
import BasicLang.Machine.Schedule
import BasicLang.Editor.Server
import BasicLang.Command.Outcome
import BasicLang.Main
import BasicLang.Proofs.Lexer
import BasicLang.Proofs.Syntax.BlockGrammar
import BasicLang.Proofs.Code.Generation
import BasicLang.Proofs.Evaluation
import BasicLang.Proofs.Code.ExprCode
import BasicLang.Proofs.Machine.Stepping
import BasicLang.Proofs.NameResolution
import BasicLang.Proofs.Machine.Slices
import BasicLang.Proofs.Action.Convention
import BasicLang.Proofs.TypeSoundness
import BasicLang.Proofs.Action.Invariant
import BasicLang.Proofs.Machine.Views
import BasicLang.Proofs.Machine.Control
import BasicLang.Proofs.Machine.Suspension
import BasicLang.Proofs.Machine.Replies
import BasicLang.Proofs.Machine.Events
import BasicLang.Proofs.Machine.Deeds
import BasicLang.Proofs.Machine.Ending
import BasicLang.Proofs.Code.Depth
import BasicLang.Proofs.Code.DepthStmt
import BasicLang.Proofs.Code.StackDiscipline
import BasicLang.Proofs.Code.Containment
import BasicLang.Proofs.Machine.Activations
import BasicLang.Proofs.Machine.Ownership
import BasicLang.Proofs.Machine.Constancy
import BasicLang.Proofs.Code.Redirection
import BasicLang.Proofs.Action.Printing
import BasicLang.Proofs.Machine.Routing
import BasicLang.Proofs.Machine.Containers
import BasicLang.Proofs.Machine.Effects
import BasicLang.Proofs.Machine.FrameStack
import BasicLang.Proofs.Machine.Isolation
import BasicLang.Proofs.Machine.Aliasing
import BasicLang.Proofs.Machine.HandlerCode
import BasicLang.Proofs.Derivation.Parsing
import BasicLang.Proofs.Files.Fields
import BasicLang.Proofs.Files.RoundTrip
import BasicLang.Proofs.Syntax.Spelling
import BasicLang.Proofs.Lexing.Coverage
import BasicLang.Proofs.Lexing.Rejoining
import BasicLang.Proofs.Machine.DefaultTypes
import BasicLang.Proofs.Files.Flushes
import BasicLang.Proofs.Arrays
import BasicLang.Proofs.Code.Exits
import BasicLang.Proofs.Machine.Leaving
import BasicLang.Proofs.Code.Loops
import BasicLang.Proofs.Code.Parameters
import BasicLang.Proofs.Machine.Counting
import BasicLang.Proofs.Machine.Iteration
import BasicLang.Proofs.CountingLoops
import BasicLang.Proofs.BitOperators
import BasicLang.Proofs.Resizing
import BasicLang.Proofs.ArgumentBinding
import BasicLang.Proofs.Conversion
import BasicLang.Proofs.RadixNumbers
import BasicLang.Proofs.ConstantFolding
import BasicLang.Proofs.Action.Results
import BasicLang.Proofs.Files.EndOfFile
import BasicLang.Proofs.Files.ConsoleFields
import BasicLang.Proofs.Files.StatementCode
import BasicLang.Proofs.DataOrder
import BasicLang.Proofs.Text.Substrings
import BasicLang.Proofs.Text.Templates
import BasicLang.Proofs.Derivation.Separators
import BasicLang.Proofs.Machine.Columns
import BasicLang.Proofs.Number.FullPeriod
import BasicLang.Proofs.Editor.Ranges
