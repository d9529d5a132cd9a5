/-
# Values

A value is a number, a text or `none`.  Truth values have no kind of their own: they are the
numbers one and zero.
-/
import FlatScript.NumberText
import FlatScript.Tree

namespace FlatScript

/-- What an expression evaluates to and a variable holds. -/
inductive Value where
  | number (x : Float)
  | text (s : String)
  | none
deriving DecidableEq

/-- The three kinds of values. -/
inductive Kind where
  | number
  | text
  | none
deriving DecidableEq

/-- How a message names a kind. -/
def Kind.description : Kind → String
  | .number => "number"
  | .text => "text"
  | .none => "none"

namespace Value

/-- The kind of a value. -/
def kind : Value → Kind
  | .number _ => .number
  | .text _ => .text
  | .none => .none

/-- Whether a value holds as a condition: a number other than zero, or a text that is not empty.
A value that is not a number at all (NaN) differs from zero. -/
def isTrue : Value → Bool
  | .number x => x != 0
  | .text s => s != ""
  | .none => false

/-- Whether a value is a text. -/
def isText : Value → Bool
  | .text _ => true
  | _ => false

/-- The number that stands for a truth value. -/
def ofBool (b : Bool) : Value :=
  .number (if b then 1 else 0)

/-- The value of a constant. -/
def ofLiteral : Literal → Value
  | .number x => .number x
  | .truth b => ofBool b
  | .text s => .text s
  | .none => .none

/-- What is printed for a value, and what it adds to a text it is joined to. -/
def display : Value → String
  | .number x => numberText x
  | .text s => s
  | .none => "none"

end Value

end FlatScript
