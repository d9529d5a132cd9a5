/-
# Syntax trees

A program is a list of statements.  Every expression and every statement carries the span it was
read from; parentheses leave no trace in a tree, since its shape says what they say.
-/
import FlatScript.Operator
import FlatScript.Span

namespace FlatScript

/-- A constant, as written in a program. -/
inductive Literal where
  | number (x : Float)
  | truth (b : Bool)
  | text (s : String)
  | none
deriving DecidableEq

/-- The name of a variable, where it stands. -/
structure Name where
  text : String
  span : Span
deriving DecidableEq

/-- An expression. -/
inductive Expr where
  | literal (value : Literal) (span : Span)
  | var (name : Name) (span : Span)
  | binary (op : BinaryOp) (left right : Expr) (span : Span)
deriving DecidableEq

/-- The span of an expression. -/
def Expr.span : Expr → Span
  | .literal _ span => span
  | .var _ span => span
  | .binary _ _ _ span => span

/-- A statement. -/
inductive Stmt where
  /-- Evaluates an expression and drops its value. -/
  | expr (value : Expr) (span : Span)
  /-- Gives a variable the value of an expression. -/
  | assign (name : Name) (value : Expr) (span : Span)
  /-- Prints the items one after the other and the terminator behind them. -/
  | print (items : List Expr) (terminator : Expr) (span : Span)
  /-- Runs the body if the condition holds, and otherwise the alternative, if there is one. -/
  | branch (condition : Expr) (body : List Stmt) (alternative : Option (List Stmt)) (span : Span)
  /-- Runs the body as long as the condition holds. -/
  | whileLoop (condition : Expr) (body : List Stmt) (span : Span)
  /-- Runs the start once, and then the body and the step as long as the condition holds. -/
  | forLoop (start : Stmt) (condition : Expr) (step : Stmt) (body : List Stmt) (span : Span)
  /-- Changes a variable by one. -/
  | update (op : UpdateOp) (name : Name) (span : Span)

/-- The span of a statement. -/
def Stmt.span : Stmt → Span
  | .expr _ span => span
  | .assign _ _ span => span
  | .print _ _ span => span
  | .branch _ _ _ span => span
  | .whileLoop _ _ span => span
  | .forLoop _ _ _ _ span => span
  | .update _ _ span => span

/-- A program: the statements of its top level. -/
abbrev Program := List Stmt

end FlatScript
