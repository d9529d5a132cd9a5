/-
# Errors of running

A running program fails at a variable that was never given a value, at an operator that is not
defined on the kinds of its operands, and at an update of something other than a number.
-/
import FlatScript.Value

namespace FlatScript

/-- Why a program stopped. -/
inductive RuntimeError where
  | undefinedVariable (name : String)
  | unsupportedOperands (op : BinaryOp) (left right : Kind)
  /-- The kind is missing where the variable itself is. -/
  | unsupportedUpdate (op : UpdateOp) (name : String) (kind : Option Kind)
deriving DecidableEq

/-- The message of an error of running. -/
def RuntimeError.message : RuntimeError → String
  | .undefinedVariable name => s!"Undefined variable '{name}'"
  | .unsupportedOperands op left right =>
    s!"Unsupported operation '{op.symbol}' between {left.description} and {right.description}"
  | .unsupportedUpdate op name (some kind) =>
    s!"Unsupported operation '{op.symbol}' on {kind.description} variable '{name}'"
  | .unsupportedUpdate op name none =>
    s!"Unsupported operation '{op.symbol}' on undefined variable '{name}'"

end FlatScript
