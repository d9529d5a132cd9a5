import FlatScript.CodeRanges
import FlatScript.Position
import FlatScript.Span
import FlatScript.Cursor
import FlatScript.Unicode.WhiteSpace
import FlatScript.Unicode.Alphabetic
import FlatScript.Unicode.Numeric
import FlatScript.Unicode.Unprintable
import FlatScript.Unicode.CombiningMark
import FlatScript.Unicode.DefaultIgnorable
import FlatScript.Magnitude
import FlatScript.NumberText
import FlatScript.Numeral
import FlatScript.Quoted
import FlatScript.Operator
import FlatScript.Token
import FlatScript.Lexeme
import FlatScript.Feed
import FlatScript.Tree
import FlatScript.SExpression
import FlatScript.ParseError
import FlatScript.Parser
import FlatScript.ExprParser
import FlatScript.StmtParser
import FlatScript.Value
import FlatScript.RuntimeError
import FlatScript.Store
import FlatScript.Operation
import FlatScript.Evaluation
import FlatScript.Machine
import FlatScript.Script
import FlatScript.Proofs.Relocation
import FlatScript.Proofs.Grammar
import FlatScript.Proofs.Climbing
import FlatScript.Proofs.Reading
import FlatScript.Proofs.ReadingRules
import FlatScript.Proofs.ExprReading
import FlatScript.Proofs.StmtReading
import FlatScript.Proofs.ProgramReading
import FlatScript.Proofs.WholeInput
import FlatScript.Proofs.Parsing
import FlatScript.Proofs.Lockstep
import FlatScript.Proofs.StmtLockstep
import FlatScript.Proofs.Lookahead
import FlatScript.Proofs.Trace
import FlatScript.Proofs.RunRelocation
import FlatScript.Proofs.Layout
import FlatScript.Proofs.Scanning
import FlatScript.Proofs.Words
import FlatScript.Proofs.Ending
import FlatScript.Proofs.Concatenation
import FlatScript.Proofs.Rounding
import FlatScript.Proofs.NumberReading
import FlatScript.Proofs.Bracketing
import FlatScript.Proofs.Rendering
import FlatScript.Proofs.Stretches
import FlatScript.Proofs.Taking
import FlatScript.Proofs.Placement
import FlatScript.Proofs.Excerpts
import FlatScript.Proofs.Tiling
import FlatScript.Proofs.Respacing
import FlatScript.Proofs.Kinds
import FlatScript.Proofs.TwoRuns
import FlatScript.Proofs.Footprint
import FlatScript.Proofs.LongestMatch
import FlatScript.Proofs.TextLiterals
import FlatScript.Proofs.Joining
import FlatScript.Proofs.Unrolling
import FlatScript.Proofs.Places
import FlatScript.Proofs.CursorWalk
import FlatScript.Proofs.LexemeOrder
import FlatScript.Proofs.Phrases
import FlatScript.Proofs.Cutting
import FlatScript.Proofs.SafeReading
