/-
# Errors of reading

Reading a program fails at a character that begins no token, or at a token that does not fit
what was read before it.
-/
import FlatScript.Lexeme

namespace FlatScript

/-- What would have fitted where reading stopped. -/
inductive Expected where
  | token (token : Token)
  | expression
  | name
  | text
  | updateClause
deriving DecidableEq

/-- How a message names what was expected. -/
def Expected.description : Expected → String
  | .token t => t.description
  | .expression => "expression"
  | .name => "identifier"
  | .text => "string literal"
  | .updateClause => "'++', '--' or '='"

/-- A token that does not fit: what was expected in its place, the token itself, and its span. -/
structure Unexpected where
  expected : Expected
  got : Token
  span : Span
deriving DecidableEq

/-- The message of a token that does not fit. -/
def Unexpected.message (e : Unexpected) : String :=
  s!"Expected {e.expected.description} at {e.span}, but got {e.got.description}"

/-- Why a source could not be read. -/
inductive ParseError where
  | lexical (error : LexError)
  | syntactic (error : Unexpected)
deriving DecidableEq

/-- The message of an error of reading. -/
def ParseError.message : ParseError → String
  | .lexical error => error.message
  | .syntactic error => error.message

end FlatScript
