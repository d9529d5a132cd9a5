/-
# The left spine of an expression

Evaluation descends the left spine of an expression and keeps the right operands that it passes,
with their operators.  What it finds is what a plain recursion finds: the value of the left operand,
then that of the right one, and then that of the operator on both.

* `Expr.evalOnto_eq` : evaluating onto what is pending is evaluating, and then applying it;
* `Expr.eval_literal`, `Expr.eval_var`, `Expr.eval_binary` : the value of an expression, from those
  of its parts;
* `Expr.evalPlain` : the plain recursion, and `Expr.walk` : the way down the spine and up again;
* `Expr.eval_is_plain_recursion` : that evaluation is both.
-/
import FlatScript.Evaluation

namespace FlatScript

/-- Pending operators are applied one after the other. -/
theorem Pending.applyAll_cons (first : Pending) (later : List Pending) (left : Value) :
    applyAll (first :: later) left = applyAll [first] left >>= applyAll later := by
  rw [applyAll, applyAll]
  cases first.right () with
  | error e => rfl
  | ok right =>
    show (first.op.apply left right >>= applyAll later) =
      (first.op.apply left right >>= applyAll []) >>= applyAll later
    cases first.op.apply left right <;> rfl

namespace Expr

variable (store : Store)

/-- **Pending operators.**  They are applied to the value of the expression in front of them, if it
has one. -/
theorem evalOnto_eq (e : Expr) (pending : List Pending) :
    e.evalOnto store pending = e.eval store >>= Pending.applyAll pending := by
  -- On the left spine: the right operands that wait are never looked into.
  induction e generalizing pending with
  | literal value span => rfl
  | var name span =>
    rw [eval, evalOnto, evalOnto]
    cases store.read name.text <;> rfl
  | binary op left right span ihleft _ =>
    rw [eval, evalOnto, evalOnto, ihleft, ihleft]
    cases left.eval store with
    | error e => rfl
    | ok value => exact Pending.applyAll_cons _ pending value

@[simp] theorem eval_literal (value : Literal) (span : Span) :
    (literal value span).eval store = .ok (.ofLiteral value) := rfl

@[simp] theorem eval_var (name : Name) (span : Span) :
    (var name span).eval store = store.read name.text := by
  rw [eval, evalOnto]
  cases store.read name.text <;> rfl

/-- **Operands.**  The left operand has its value first, then the right one, and then the operator
is applied to both. -/
theorem eval_binary (op : BinaryOp) (left right : Expr) (span : Span) :
    (binary op left right span).eval store =
      (do op.apply (← left.eval store) (← right.eval store)) := by
  rw [eval, evalOnto, evalOnto_eq]
  cases left.eval store with
  | error e => rfl
  | ok a =>
    show Pending.applyAll [⟨op, fun _ => right.eval store⟩] a = _
    rw [Pending.applyAll]
    cases right.eval store with
    | error e => rfl
    | ok b =>
      show (op.apply a b >>= Pending.applyAll []) = op.apply a b
      cases op.apply a b <;> rfl

/-! ## Plain recursion, and a walk along the spine -/

/-- The value of an expression by recursion on both operands.  A constant stands for itself, and a
variable for what it holds.  Of an operation, the left operand is evaluated first, then the right
one, whatever the value of the left one is, and then the operator is applied to both values; the
first error on this way is the result. -/
def evalPlain : Expr → Except RuntimeError Value
  | .literal value _ => .ok (.ofLiteral value)
  | .var name _ =>
    match store.get? name.text with
    | some value => .ok value
    | none => .error (.undefinedVariable name.text)
  | .binary op left right _ =>
    match left.evalPlain with
    | .error e => .error e
    | .ok a =>
      match right.evalPlain with
      | .error e => .error e
      | .ok b => op.apply a b

/-- The lower end of the left spine, which is no operation. -/
def leftmost : Expr → Expr
  | .binary _ left _ _ => left.leftmost
  | e => e

/-- The operations on the left spine, each as its operator and its right operand, from the lowest
one, which is applied first, up to the expression itself. -/
def spine : Expr → List (BinaryOp × Expr)
  | .binary op left right _ => left.spine ++ [(op, right)]
  | _ => []

/-- Applies an operator to the value of its left operand, once the right one has been evaluated. -/
def applyNext (left : Value) (operation : BinaryOp × Expr) : Except RuntimeError Value := do
  operation.1.apply left (← operation.2.eval store)

/-- Evaluates the lower end of the left spine, and then, on the way up, one right operand after the
other, each of them in front of its operator. -/
def walk (e : Expr) : Except RuntimeError Value := do
  e.spine.foldlM (applyNext store) (← e.leftmost.eval store)

/-- **The walk.**  Its last step is that of the operation at the top, so it finds the value of an
expression. -/
theorem walk_eq_eval (e : Expr) : e.walk store = e.eval store := by
  induction e with
  | literal value span => rfl
  | var name span =>
    show ((var name span).eval store >>= pure) = _
    rw [bind_pure]
  | binary op left right span ihleft _ =>
    have hsplit : (binary op left right span).walk store =
        left.walk store >>= fun a => [(op, right)].foldlM (applyNext store) a := by
      simp only [walk, leftmost, spine, List.foldlM_append, bind_assoc]
    rw [hsplit, ihleft, eval_binary]
    cases left.eval store with
    | error e => rfl
    | ok a =>
      show (applyNext store a (op, right) >>= pure) = _
      rw [bind_pure]
      rfl

/-- **The recursion.**  It finds the value of an expression as well. -/
theorem evalPlain_eq_eval (e : Expr) : e.evalPlain store = e.eval store := by
  induction e with
  | literal value span => rfl
  | var name span =>
    rw [eval_var]
    rfl
  | binary op left right span ihleft ihright =>
    rw [evalPlain, eval_binary, ihleft, ihright]
    cases left.eval store with
    | error e => rfl
    | ok a => cases right.eval store <;> rfl

/-- **Evaluation.**  In every store, an expression is evaluated by a walk along its left spine, with
a right operand evaluated in the same way when the walk comes by; and this gives what plain
recursion gives: the same value, or the same error. -/
theorem eval_is_plain_recursion (e : Expr) :
    e.eval store = e.walk store ∧ e.eval store = e.evalPlain store :=
  ⟨(walk_eq_eval store e).symm, (evalPlain_eq_eval store e).symm⟩

end Expr

end FlatScript
