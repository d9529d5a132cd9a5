/-
# Evaluating expressions

An expression has a value in a store, or fails with the first error met when its parts are
evaluated from left to right.  Both operands of every operator are evaluated, those of `and` and
`or` included.

A long chain `a + b + c + …` leans to the left.  Evaluation descends its left spine and keeps
the right operands that it passes, each with its operator, in a list of what is pending; then it
applies them to the leftmost value one by one.  So only right operands nest.
-/
import FlatScript.Operation
import FlatScript.Store

namespace FlatScript

/-- An operator that waits for its left operand, with the evaluation of its right one, which is
not begun before the left one has its value. -/
structure Pending where
  op : BinaryOp
  right : Unit → Except RuntimeError Value

/-- Applies pending operators, the first one first, to a value. -/
def Pending.applyAll : List Pending → Value → Except RuntimeError Value
  | [], left => .ok left
  | first :: later, left => do
    let right ← first.right ()
    let value ← first.op.apply left right
    applyAll later value

namespace Expr

/-- Evaluates an expression and applies the pending operators to its value. -/
def evalOnto (store : Store) : Expr → List Pending → Except RuntimeError Value
  | .literal value _, pending => Pending.applyAll pending (.ofLiteral value)
  | .var name _, pending => do
    let value ← store.read name.text
    Pending.applyAll pending value
  | .binary op left right _, pending =>
    evalOnto store left (⟨op, fun _ => evalOnto store right []⟩ :: pending)

/-- The value of an expression. -/
def eval (store : Store) (e : Expr) : Except RuntimeError Value :=
  e.evalOnto store []

/-- What is printed for a list of expressions: the texts of their values, with nothing between. -/
def evalLine (store : Store) : List Expr → Except RuntimeError String
  | [] => .ok ""
  | item :: items => do
    let value ← item.eval store
    let line ← evalLine store items
    return value.display ++ line

end Expr

end FlatScript
