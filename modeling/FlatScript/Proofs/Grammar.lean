/-
# The grammar

Which sequences of tokens are expressions, statements and programs, and which bare tree each of
them stands for.  The grammar is stated by itself: it knows nothing of windows, of levels at
which an operand is read, or of the order in which a reader meets the tokens.

* `Grammar.Expression` has one nonterminal for each stratum of operators, every one of them left
  recursive;
* `Grammar.Statement`, `Grammar.Statements` and `Grammar.Block` are mutually recursive;
* `Grammar.Completable` says that some tokens are the beginning of a valid sequence.
-/
import FlatScript.Token
import FlatScript.Tree

namespace FlatScript

/-- The token that a binary operator is written as. -/
def BinaryOp.token : BinaryOp → Token
  | .add => .symbol .plus
  | .subtract => .symbol .minus
  | .multiply => .symbol .star
  | .divide => .symbol .slash
  | .equal => .symbol .equalsEquals
  | .notEqual => .symbol .notEquals
  | .greater => .symbol .greater
  | .greaterEqual => .symbol .greaterEquals
  | .less => .symbol .less
  | .lessEqual => .symbol .lessEquals
  | .and => .keyword .conjunction
  | .or => .keyword .disjunction

namespace Grammar

/-! ## Expressions -/

/-- The strata of expressions, from the one whose operators bind the loosest. -/
inductive Stratum where
  | disjunction
  | conjunction
  | equality
  | relation
  | sum
  | product
  | primary
deriving DecidableEq

namespace Stratum

/-- The operators that join the operands of a stratum. -/
def operators : Stratum → List BinaryOp
  | .disjunction => [.or]
  | .conjunction => [.and]
  | .equality => [.equal, .notEqual]
  | .relation => [.less, .greater, .lessEqual, .greaterEqual]
  | .sum => [.add, .subtract]
  | .product => [.multiply, .divide]
  | .primary => []

/-- The stratum that the operands of a stratum belong to. -/
def operand? : Stratum → Option Stratum
  | .disjunction => some .conjunction
  | .conjunction => some .equality
  | .equality => some .relation
  | .relation => some .sum
  | .sum => some .product
  | .product => some .primary
  | .primary => none

end Stratum

/-- The expressions of a single token: constants and variables. -/
inductive Leaf : Token → Expr → Prop where
  | number (x : Float) : Leaf (.number x) (.literal (.number x) {})
  | text (s : String) : Leaf (.text s) (.literal (.text s) {})
  | truth : Leaf (.keyword .truth) (.literal (.truth true) {})
  | falsehood : Leaf (.keyword .falsehood) (.literal (.truth false) {})
  | absence : Leaf (.keyword .absence) (.literal .none {})
  | variable (x : String) : Leaf (.name x) (.var ⟨x, {}⟩ {})

/-- The expressions of a stratum.  A chain of operands leans to the left: its left part is a chain
of the same stratum, its last operand belongs to the next one. -/
inductive Expression : Stratum → List Token → Expr → Prop where
  | leaf {t : Token} {e : Expr} (h : Leaf t e) : Expression .primary [t] e
  | group {ts : List Token} {e : Expr} (h : Expression .disjunction ts e) :
      Expression .primary (.symbol .leftParen :: ts ++ [.symbol .rightParen]) e
  | single {s s' : Stratum} {ts : List Token} {e : Expr} (hs : s.operand? = some s')
      (h : Expression s' ts e) : Expression s ts e
  | chain {s s' : Stratum} {op : BinaryOp} {ts us : List Token} {l r : Expr}
      (hs : s.operand? = some s') (hop : op ∈ s.operators)
      (hl : Expression s ts l) (hr : Expression s' us r) :
      Expression s (ts ++ op.token :: us) (.binary op l r {})

/-- Any expression: a chain of the loosest stratum. -/
abbrev AnyExpression : List Token → Expr → Prop :=
  Expression .disjunction

/-- The tokens that an expression can begin with. -/
def StartsExpression (t : Token) : Prop :=
  t = .symbol .leftParen ∨ ∃ e, Leaf t e

/-! ## Statements -/

/-- What stands behind the first item of a printed line: more items, each after a comma, and
perhaps the terminator as the last one. -/
inductive Items : List Token → List Expr × Option Expr → Prop where
  | stop : Items [] ([], none)
  | terminator (s : String) :
      Items [.symbol .comma, .keyword .terminator, .symbol .equals, .text s]
        ([], some (.literal (.text s) {}))
  | item {ts us : List Token} {e : Expr} {es : List Expr} {ending : Option Expr}
      (he : AnyExpression ts e) (hs : Items us (es, ending)) :
      Items (.symbol .comma :: ts ++ us) (e :: es, ending)

/-- What stands behind the name of a variable that is changed. -/
inductive Change (x : String) : List Token → Stmt → Prop where
  | assign {ts : List Token} {e : Expr} (he : AnyExpression ts e) :
      Change x (.symbol .equals :: ts) (.assign ⟨x, {}⟩ e {})
  | increment : Change x [.symbol .plusPlus] (.update .increment ⟨x, {}⟩ {})
  | decrement : Change x [.symbol .minusMinus] (.update .decrement ⟨x, {}⟩ {})

mutual

/-- One statement. -/
inductive Statement : List Token → Stmt → Prop where
  | print {ts us : List Token} {e : Expr} {es : List Expr} {ending : Option Expr}
      (he : AnyExpression ts e) (hs : Items us (es, ending)) :
      Statement
        ([.keyword .print, .symbol .leftParen] ++ ts ++ us
          ++ [.symbol .rightParen, .symbol .semicolon])
        (.print (e :: es) (ending.getD (.literal (.text "\n") {})) {})
  | change {x : String} {ts : List Token} {s : Stmt} (h : Change x ts s) :
      Statement (.name x :: ts ++ [.symbol .semicolon]) s
  | expr {ts : List Token} {e : Expr} (he : AnyExpression ts e) :
      Statement (ts ++ [.symbol .semicolon]) (.expr e {})
  | branch {ts us vs : List Token} {c : Expr} {body : List Stmt} {alternative : Option (List Stmt)}
      (hc : AnyExpression ts c) (hb : Block us body) (ha : Alternative vs alternative) :
      Statement
        ([.keyword .conditional, .symbol .leftParen] ++ ts ++ [.symbol .rightParen] ++ us ++ vs)
        (.branch c body alternative {})
  | whileLoop {ts us : List Token} {c : Expr} {body : List Stmt}
      (hc : AnyExpression ts c) (hb : Block us body) :
      Statement ([.keyword .whileLoop, .symbol .leftParen] ++ ts ++ [.symbol .rightParen] ++ us)
        (.whileLoop c body {})
  | forLoop {x y : String} {ts us vs ws : List Token} {e c : Expr} {step : Stmt}
      {body : List Stmt} (he : AnyExpression ts e) (hc : AnyExpression us c)
      (hp : Change y vs step) (hb : Block ws body) :
      Statement
        ([.keyword .forLoop, .symbol .leftParen, .name x, .symbol .equals] ++ ts
          ++ [.symbol .semicolon] ++ us ++ [.symbol .semicolon, .name y] ++ vs
          ++ [.symbol .rightParen] ++ ws)
        (.forLoop (.assign ⟨x, {}⟩ e {}) c step body {})

/-- The block behind an `else`, if there is one.  No block is not the same as an empty one. -/
inductive Alternative : List Token → Option (List Stmt) → Prop where
  | absent : Alternative [] none
  | present {ts : List Token} {body : List Stmt} (hb : Block ts body) :
      Alternative (.keyword .otherwise :: ts) (some body)

/-- Statements between braces. -/
inductive Block : List Token → List Stmt → Prop where
  | braces {ts : List Token} {body : List Stmt} (h : Statements ts body) :
      Block (.symbol .leftBrace :: ts ++ [.symbol .rightBrace]) body

/-- Statements one after the other. -/
inductive Statements : List Token → List Stmt → Prop where
  | nil : Statements [] []
  | cons {ts us : List Token} {s : Stmt} {ss : List Stmt} (hs : Statement ts s)
      (hss : Statements us ss) : Statements (ts ++ us) (s :: ss)

end

/-! ## Beginnings -/

/-- Some tokens are the beginning of a word of a language: other tokens can be put behind them to
make one. -/
def Completable {β : Type} (L : List Token → β → Prop) (ts : List Token) : Prop :=
  ∃ us b, L (ts ++ us) b

end Grammar

end FlatScript
