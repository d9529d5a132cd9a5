/-
# Tokens

A token is a least unit of the language: a fixed symbol, a keyword, a word that is a name, a
text between quotation marks, a number, a character that belongs to no token, or the end of the
input.

* `Symbol.pair?` and `Symbol.single?` give the symbols of two characters and of one; a symbol of
  two is preferred where both fit;
* `Keyword.ofWord?` is the table of reserved words;
* `Token.description` is how messages name a token.
-/
import FlatScript.NumberText
import FlatScript.Operator
import FlatScript.Quoted

namespace FlatScript

/-! ## Fixed symbols -/

/-- A punctuation mark or an operator written with signs. -/
inductive Symbol where
  | leftParen
  | rightParen
  | leftBrace
  | rightBrace
  | semicolon
  | comma
  | star
  | slash
  | plus
  | plusPlus
  | minus
  | minusMinus
  | equals
  | equalsEquals
  | notEquals
  | less
  | lessEquals
  | greater
  | greaterEquals
deriving DecidableEq

namespace Symbol

/-- The symbol as it is written. -/
def text : Symbol → String
  | .leftParen => "("
  | .rightParen => ")"
  | .leftBrace => "\x7b"
  | .rightBrace => "\x7d"
  | .semicolon => ";"
  | .comma => ","
  | .star => "*"
  | .slash => "/"
  | .plus => "+"
  | .plusPlus => "++"
  | .minus => "-"
  | .minusMinus => "--"
  | .equals => "="
  | .equalsEquals => "=="
  | .notEquals => "!="
  | .less => "<"
  | .lessEquals => "<="
  | .greater => ">"
  | .greaterEquals => ">="

/-- The symbol that one character makes alone. -/
def single? : Char → Option Symbol
  | '(' => some .leftParen
  | ')' => some .rightParen
  | '{' => some .leftBrace
  | '}' => some .rightBrace
  | ';' => some .semicolon
  | ',' => some .comma
  | '*' => some .star
  | '/' => some .slash
  | '+' => some .plus
  | '-' => some .minus
  | '=' => some .equals
  | '<' => some .less
  | '>' => some .greater
  | _ => none

/-- The symbol that two characters make together. -/
def pair? : Char → Char → Option Symbol
  | '+', '+' => some .plusPlus
  | '-', '-' => some .minusMinus
  | '=', '=' => some .equalsEquals
  | '!', '=' => some .notEquals
  | '<', '=' => some .lessEquals
  | '>', '=' => some .greaterEquals
  | _, _ => none

end Symbol

/-! ## Keywords -/

/-- A reserved word, named for what it stands for. -/
inductive Keyword where
  | conjunction
  | otherwise
  | terminator
  | falsehood
  | forLoop
  | conditional
  | absence
  | disjunction
  | print
  | truth
  | whileLoop
deriving DecidableEq

namespace Keyword

/-- All keywords. -/
def all : List Keyword :=
  [.conjunction, .otherwise, .terminator, .falsehood, .forLoop, .conditional, .absence,
    .disjunction, .print, .truth, .whileLoop]

/-- The keyword as it is written. -/
def text : Keyword → String
  | .conjunction => "and"
  | .otherwise => "else"
  | .terminator => "end"
  | .falsehood => "false"
  | .forLoop => "for"
  | .conditional => "if"
  | .absence => "none"
  | .disjunction => "or"
  | .print => "print"
  | .truth => "true"
  | .whileLoop => "while"

/-- The keyword with a given spelling. -/
def ofWord? (word : String) : Option Keyword :=
  all.find? (·.text = word)

end Keyword

/-! ## Tokens -/

/-- A least unit of the language. -/
inductive Token where
  | symbol (mark : Symbol)
  | keyword (word : Keyword)
  | name (word : String)
  | text (content : String)
  | number (value : Float)
  | unrecognized (character : Char)
  | endOfInput
deriving DecidableEq

namespace Token

/-- The token of a word: a keyword if the word is reserved, and a name otherwise. -/
def ofWord (word : String) : Token :=
  match Keyword.ofWord? word with
  | some reserved => .keyword reserved
  | none => .name word

/-- The binary operator that a token stands for. -/
def binaryOp? : Token → Option BinaryOp
  | .symbol .plus => some .add
  | .symbol .minus => some .subtract
  | .symbol .star => some .multiply
  | .symbol .slash => some .divide
  | .symbol .equalsEquals => some .equal
  | .symbol .notEquals => some .notEqual
  | .symbol .greater => some .greater
  | .symbol .greaterEquals => some .greaterEqual
  | .symbol .less => some .less
  | .symbol .lessEquals => some .lessEqual
  | .keyword .conjunction => some .and
  | .keyword .disjunction => some .or
  | _ => none

/-- How a message names the token. -/
def description : Token → String
  | .symbol mark => s!"'{mark.text}'"
  | .keyword word => s!"'{word.text}'"
  | .name word => s!"identifier '{word}'"
  | .text content => s!"string {quoted content}"
  | .number x => s!"number {numberText x}"
  | .unrecognized c => s!"unrecognized character '{c}'"
  | .endOfInput => "end of input"

end Token

end FlatScript
