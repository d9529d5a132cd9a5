/-
# S-expressions

A tree is shown as an S-expression: an operator in front of its operands, in parentheses, and
the statements of a block between braces.  The rendering says everything about a tree but its
spans.
-/
import FlatScript.NumberText
import FlatScript.Quoted
import FlatScript.Tree

namespace FlatScript

/-! ## Expressions -/

/-- A constant as it stands in an S-expression. -/
def Literal.sexpr : Literal → String
  | .number x => numberText x
  | .truth true => "true"
  | .truth false => "false"
  | .text s => quoted s
  | .none => "none"

/-- An expression as an S-expression. -/
def Expr.sexpr : Expr → String
  | .literal value _ => value.sexpr
  | .var name _ => name.text
  | .binary op left right _ => "(" ++ op.symbol ++ " " ++ left.sexpr ++ " " ++ right.sexpr ++ ")"

/-! ## Statements -/

/-- The statements of a block between braces. -/
def braced (statements : List String) : String :=
  "\x7b" ++ " ".intercalate statements ++ "\x7d"

mutual

/-- A statement as an S-expression. -/
def Stmt.sexpr : Stmt → String
  | .expr value _ => value.sexpr
  | .assign name value _ => "(set " ++ name.text ++ " " ++ value.sexpr ++ ")"
  | .print items terminator _ =>
    "(print " ++ " ".intercalate (items.map Expr.sexpr) ++ " :end " ++ terminator.sexpr ++ ")"
  | .branch condition body none _ =>
    "(if " ++ condition.sexpr ++ " " ++ braced (sexprs body) ++ ")"
  | .branch condition body (some alternative) _ =>
    "(if " ++ condition.sexpr ++ " " ++ braced (sexprs body) ++ " "
      ++ braced (sexprs alternative) ++ ")"
  | .whileLoop condition body _ =>
    "(while " ++ condition.sexpr ++ " " ++ braced (sexprs body) ++ ")"
  | .forLoop start condition step body _ =>
    "(for " ++ start.sexpr ++ " " ++ condition.sexpr ++ " " ++ step.sexpr ++ " "
      ++ braced (sexprs body) ++ ")"
  | .update op name _ => "(" ++ op.symbol ++ " " ++ name.text ++ ")"

/-- Statements as S-expressions, one by one. -/
def sexprs : List Stmt → List String
  | [] => []
  | statement :: statements => statement.sexpr :: sexprs statements

end

/-- A program as S-expressions, one line for each statement of the top level. -/
def Program.sexpr (program : Program) : String :=
  "\n".intercalate (sexprs program)

end FlatScript
