/-
# Scripts

A script is a source text that is read as a whole and then run in an empty state.  Its result is
what it prints; if it cannot be read, or stops with an error, the output is dropped and the
error is the result. What happens on the way can be followed in a log.
-/
import FlatScript.Machine
import FlatScript.SExpression
import FlatScript.StmtParser

namespace FlatScript

/-! ## Results -/

/-- Why a script has no output: it could not be read, or it stopped. -/
inductive ScriptError where
  | lexical (error : LexError)
  | syntactic (error : Unexpected)
  | runtime (error : RuntimeError)
deriving DecidableEq

/-- An error of reading, as an error of the script. -/
def ScriptError.ofParseError : ParseError → ScriptError
  | .lexical error => .lexical error
  | .syntactic error => .syntactic error

/-- The message of an error, which says at which stage it arose. -/
def ScriptError.message : ScriptError → String
  | .lexical error => s!"Lex error: {error.message}"
  | .syntactic error => s!"Parse error: {error.message}"
  | .runtime error => s!"Runtime error: {error.message}"

namespace Script

/-- Reads a script. -/
def parse (source : String) : Except ScriptError Program :=
  (Program.parse source).mapError .ofParseError

/-- The result of a machine that has stopped: its output or its error. -/
def result? : Machine.Outcome → Option (Except ScriptError String)
  | .finished state => some (.ok state.output)
  | .failed error _ => some (.error (.runtime error))
  | .unfinished _ => none

/-- Runs a program in an empty state for at most `n` steps. -/
def run (n : Nat) (program : Program) : Machine.Outcome :=
  (Machine.start program {}).run n

/-- The result of a script, or nothing if it takes more than `n` steps. -/
def interpret (n : Nat) (source : String) : Option (Except ScriptError String) :=
  match parse source with
  | .ok program => result? (run n program)
  | .error e => some (.error e)

/-! ## Logs -/

/-- What a log tells about a script. -/
inductive Event where
  /-- The script was read, and has this many statements at its top level. -/
  | parsed (count : Nat)
  /-- The tree that was read. -/
  | tree (program : Program)
  /-- A statement is about to be run. -/
  | running (statement : Stmt)
  /-- The script came to its end, having printed this many bytes. -/
  | finished (bytes : Nat)

/-- The level of detail of an event. -/
inductive Level where
  | debug
  | trace
deriving DecidableEq

/-- The level at which an event is logged. -/
def Event.level : Event → Level
  | .running _ => .trace
  | _ => .debug

/-- The text that is logged for an event. -/
def Event.message : Event → String
  | .parsed count => s!"parsed {count} top-level statements"
  | .tree program => "program tree:\n" ++ program.sexpr
  | .running statement => s!"{statement.span} | {statement.sexpr}"
  | .finished bytes => s!"program finished with {bytes} bytes of output"

/-- The last event of a run, unless an error ended it. -/
def ending : Machine.Outcome → List Event
  | .finished state => [.finished state.output.utf8ByteSize]
  | _ => []

/-- The log of at most `n` steps of a script; it is empty for a script that cannot be read. -/
def log (n : Nat) (source : String) : List Event :=
  match parse source with
  | .ok program =>
    [.parsed program.length, .tree program]
      ++ ((Machine.start program {}).trace n).map .running
      ++ ending (run n program)
  | .error _ => []

end Script

end FlatScript
