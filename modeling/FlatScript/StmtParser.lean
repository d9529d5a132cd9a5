/-
# Reading statements

What a statement is shows in its first lexeme; only a name needs the lexeme behind it, since a
name may also begin an expression.  A program is a run of statements up to the end of the input,
and a block is one between braces.

Statements are read by functions that take the readers of their parts, an expression and a
block, as arguments; `Parser.statements` ties them together.
-/
import FlatScript.ExprParser

namespace FlatScript

namespace Parser

variable {ε σ : Type} [Failure ε] [Feed σ]

/-- Reads a token that is a symbol. -/
def symbol (mark : Symbol) : Reader ε σ Unit :=
  consume (.symbol mark)

/-- Takes a token that is a keyword and has been seen. -/
def keyword (word : Keyword) : Reader ε σ Unit :=
  expect (.keyword word)

/-! ## Simple statements -/

/-- Reads `name = expression`, `name++` or `name--`, without the semicolon behind it. -/
def change (expr : Reader ε σ Expr) : Reader ε σ (Span → Stmt) := do
  let target ← name
  match (← current).token with
  | .symbol .equals =>
    advance
    return .assign target (← expr)
  | .symbol .plusPlus =>
    advance
    return .update .increment target
  | .symbol .minusMinus =>
    advance
    return .update .decrement target
  | _ => unexpected .updateClause

/-- Reads `end = "…"`, the clause that replaces the line feed behind a printed line.  Its keyword
has been seen. -/
def terminator : Reader ε σ Expr := do
  keyword .terminator
  symbol .equals
  let here ← current
  match here.token with
  | .text s =>
    advance
    return .literal (.text s) here.span
  | _ => unexpected .text

/-- Reads the items behind the first one, each after a comma, and the terminator if one is given.
The terminator is the last item.  Each of them takes a round of a loop. -/
def items (expr : Reader ε σ Expr) : Nat → Reader ε σ (List Expr × Option Expr)
  | 0 => exhausted
  | n + 1 => do
    let before ← drawn
    if ← accept (.symbol .comma) then
      if (← current).token = .keyword .terminator then
        let ending ← terminator
        movedSince before
        return ([], some ending)
      else
        let item ← expr
        movedSince before
        let (rest, ending) ← items expr n
        return (item :: rest, ending)
    else return ([], none)

/-- Reads `print(…);`, of which `print` has been seen.  Without a terminator of its own the
statement ends its line with a line feed, which is given the span of the semicolon. -/
def printing (expr : Reader ε σ Expr) (n : Nat) : Reader ε σ (Span → Stmt) := do
  keyword .print
  symbol .leftParen
  let first ← expr
  let (rest, ending) ← items expr n
  symbol .rightParen
  let semicolon ← current
  symbol .semicolon
  return .print (first :: rest) (ending.getD (.literal (.text "\n") semicolon.span))

/-! ## Statements with blocks -/

/-- Reads an expression between parentheses. -/
def condition (expr : Reader ε σ Expr) : Reader ε σ Expr := do
  symbol .leftParen
  let value ← expr
  symbol .rightParen
  return value

/-- Reads `if (…) {…}`, of which `if` has been seen, perhaps with `else {…}` behind it. -/
def branching (expr : Reader ε σ Expr) (block : Reader ε σ (List Stmt)) :
    Reader ε σ (Span → Stmt) := do
  keyword .conditional
  let test ← condition expr
  let body ← block
  if ← accept (.keyword .otherwise) then
    return .branch test body (some (← block))
  else return .branch test body none

/-- Reads `while (…) {…}`, of which `while` has been seen. -/
def whileLooping (expr : Reader ε σ Expr) (block : Reader ε σ (List Stmt)) :
    Reader ε σ (Span → Stmt) := do
  keyword .whileLoop
  let test ← condition expr
  return .whileLoop test (← block)

/-- Reads `name = expression`, the start of a `for` loop. -/
def forStart (expr : Reader ε σ Expr) : Reader ε σ (Span → Stmt) := do
  let target ← name
  symbol .equals
  return .assign target (← expr)

/-- Reads `for (…; …; …) {…}`, of which `for` has been seen.  All three clauses are required. -/
def forLooping (expr : Reader ε σ Expr) (block : Reader ε σ (List Stmt)) :
    Reader ε σ (Span → Stmt) := do
  keyword .forLoop
  symbol .leftParen
  let start ← spanned (forStart expr)
  symbol .semicolon
  let test ← expr
  symbol .semicolon
  let step ← spanned (change expr)
  symbol .rightParen
  return .forLoop start test step (← block)

/-! ## Statements and blocks -/

/-- Whether a token behind a name makes it the target of a change. -/
def changes : Token → Bool
  | .symbol .equals | .symbol .plusPlus | .symbol .minusMinus => true
  | _ => false

/-- Reads a statement, given readers of expressions and of blocks. -/
def statement (expr : Reader ε σ Expr) (block : Reader ε σ (List Stmt)) (n : Nat) :
    Reader ε σ Stmt :=
  progressing <| spanned do
    match (← current).token with
    | .keyword .print => printing expr n
    | .keyword .conditional => branching expr block
    | .keyword .whileLoop => whileLooping expr block
    | .keyword .forLoop => forLooping expr block
    | .name _ =>
      if changes (← next).token then terminated (change expr) else terminated (evaluation expr)
    | _ => terminated (evaluation expr)
where
  /-- Reads an expression that is a statement. -/
  evaluation (expr : Reader ε σ Expr) : Reader ε σ (Span → Stmt) := do
    return .expr (← expr)
  /-- Reads a statement and the semicolon behind it. -/
  terminated (body : Reader ε σ (Span → Stmt)) : Reader ε σ (Span → Stmt) := do
    let make ← body
    symbol .semicolon
    return make

/-- Reads a block, given a reader of statements that stops when it sees the closing brace. -/
def block (inner : Reader ε σ (List Stmt)) : Reader ε σ (List Stmt) :=
  progressing do
    symbol .leftBrace
    let body ← inner
    expect (.symbol .rightBrace)
    return body

/-- Reads statements up to the closing token, which is left unread: the end of the input for a
program, a brace for a block.  Each statement takes a round of a loop. -/
def statements : Nat → Token → Reader ε σ (List Stmt)
  | 0, _ => exhausted
  | n + 1, closing => do
    let here ← current
    if here.token = closing then return []
    else if here.token = .endOfInput then unexpected (.token closing)
    else
      let inner := block (statements n (.symbol .rightBrace))
      let first ← progressing (statement (expression (n + 1) .lowest) inner (n + 1))
      let rest ← statements n closing
      return first :: rest

/-- Reads the statements of a whole program. -/
def program (n : Nat) : Reader ε σ Program :=
  statements n .endOfInput

end Parser

/-- The program that a source holds. -/
def Program.parse (source : String) : Except ParseError Program :=
  Parser.parse Parser.program source

end FlatScript
