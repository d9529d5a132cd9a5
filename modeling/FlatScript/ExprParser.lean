/-
# Reading expressions

An expression is a primary expression followed by operators with their right operands.  It is
read at a level: `Parser.expression n level` takes only operators that bind tighter than
`level`, and reads the right operand of each at that operator's own level.  So a looser or
equally tight operator ends the operand and is left for the caller, which makes every level
associate to the left.

The numbers `n` bound the recursion.  A bound greater than the number of lexemes left is never
used up, because between two uses of it at least one lexeme is read.
-/
import FlatScript.Parser

namespace FlatScript

/-- The expression that a lexeme makes alone: a constant or a variable. -/
def Lexeme.leaf? (lexeme : Lexeme) : Option Expr :=
  match lexeme.token with
  | .number x => some (.literal (.number x) lexeme.span)
  | .text s => some (.literal (.text s) lexeme.span)
  | .keyword .truth => some (.literal (.truth true) lexeme.span)
  | .keyword .falsehood => some (.literal (.truth false) lexeme.span)
  | .keyword .absence => some (.literal .none lexeme.span)
  | .name s => some (.var ⟨s, lexeme.span⟩ lexeme.span)
  | _ => none

namespace Parser

variable {ε σ : Type} [Failure ε] [Feed σ]

/-- Reads a constant, a variable, or an expression in parentheses, which keeps its own span. -/
def primary (inner : Reader ε σ Expr) : Reader ε σ Expr :=
  progressing do
    let here ← current
    if here.token = .symbol .leftParen then
      advance
      let value ← inner
      consume (.symbol .rightParen)
      return value
    else
      match here.leaf? with
      | some value =>
        advance
        return value
      | none => unexpected .expression

mutual

/-- Reads an expression whose operators all bind tighter than `level`. -/
def expression : Nat → Precedence → Reader ε σ Expr
  | 0, _ => exhausted
  | n + 1, level => do
    let left ← primary (expression n .lowest)
    operators n level left

/-- Reads the operators behind a left operand, as long as they bind tighter than `level`, and
makes the operand the leftmost one of all.  Each of them takes a round of a loop. -/
def operators : Nat → Precedence → Expr → Reader ε σ Expr
  | 0, _, _ => exhausted
  | n + 1, level, left => do
    match (← current).token.binaryOp? with
    | none => return left
    | some op =>
      if op.bindsTighter level then
        let right ← progressing do
          advance
          expression n op.precedence
        operators n level (.binary op left right (left.span.union right.span))
      else return left

end

/-- Reads one expression up to the end of the input. -/
def soleExpression (n : Nat) : Reader ε σ Expr := do
  let value ← expression n .lowest
  if (← current).token = .endOfInput then return value
  else unexpected (.token .endOfInput)

end Parser

/-- The expression that a source holds, and nothing else. -/
def Expr.parse (source : String) : Except ParseError Expr :=
  Parser.parse Parser.soleExpression source

end FlatScript
