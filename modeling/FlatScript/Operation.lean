/-
# Operations on values

What a binary operator yields depends on the kinds of its operands first.  Two numbers go with
every operator; two texts can be compared for equality; a text and anything else can be joined
with `+`.  All else is an error.
-/
import FlatScript.RuntimeError

namespace FlatScript

namespace BinaryOp

/-- An operator on two numbers.  Arithmetic is that of doubles, with infinities and NaN;
comparisons and the logical operators yield one or zero. -/
def onNumbers (op : BinaryOp) (a b : Float) : Value :=
  match op with
  | .add => .number (a + b)
  | .subtract => .number (a - b)
  | .multiply => .number (a * b)
  | .divide => .number (a / b)
  | .equal => .ofBool (a == b)
  | .notEqual => .ofBool (a != b)
  | .greater => .ofBool (a > b)
  | .greaterEqual => .ofBool (a ≥ b)
  | .less => .ofBool (a < b)
  | .lessEqual => .ofBool (a ≤ b)
  | .and => .ofBool (a != 0 && b != 0)
  | .or => .ofBool (a != 0 || b != 0)

/-- An operator on two values. -/
def apply (op : BinaryOp) (left right : Value) : Except RuntimeError Value :=
  match op, left, right with
  | op, .number a, .number b => .ok (op.onNumbers a b)
  | .equal, .text s, .text t => .ok (.ofBool (s == t))
  | .notEqual, .text s, .text t => .ok (.ofBool (s != t))
  | .add, left, right =>
    if left.isText || right.isText then .ok (.text (left.display ++ right.display))
    else .error (.unsupportedOperands .add left.kind right.kind)
  | op, left, right => .error (.unsupportedOperands op left.kind right.kind)

end BinaryOp

end FlatScript
