/-
# Operators

The twelve binary operators of expressions, with the levels at which they bind, and the two
postfix updates of variables.  Every level is left associative, so an operator takes the place
to the right of another one only if it binds strictly tighter (`BinaryOp.bindsTighter`).
-/

namespace FlatScript

/-! ## Binary operators -/

/-- An operator between two expressions. -/
inductive BinaryOp where
  | add
  | subtract
  | multiply
  | divide
  | equal
  | notEqual
  | greater
  | greaterEqual
  | less
  | lessEqual
  | and
  | or
deriving DecidableEq

/-- The levels of binding, from the loosest to the tightest.  No operator has the lowest level: it
is the one at which a whole expression is read. -/
inductive Precedence where
  | lowest
  | logicalOr
  | logicalAnd
  | equality
  | comparison
  | addition
  | multiplication
deriving DecidableEq

namespace Precedence

/-- The place of a level in the order, counted from the loosest. -/
def rank : Precedence → Nat
  | .lowest => 0
  | .logicalOr => 1
  | .logicalAnd => 2
  | .equality => 3
  | .comparison => 4
  | .addition => 5
  | .multiplication => 6

instance : LT Precedence where
  lt p q := p.rank < q.rank

instance (p q : Precedence) : Decidable (p < q) :=
  inferInstanceAs (Decidable (p.rank < q.rank))

end Precedence

namespace BinaryOp

/-- All binary operators. -/
def all : List BinaryOp :=
  [.add, .subtract, .multiply, .divide, .equal, .notEqual, .greater, .greaterEqual, .less,
    .lessEqual, .and, .or]

/-- The operator as it is written. -/
def symbol : BinaryOp → String
  | .add => "+"
  | .subtract => "-"
  | .multiply => "*"
  | .divide => "/"
  | .equal => "=="
  | .notEqual => "!="
  | .greater => ">"
  | .greaterEqual => ">="
  | .less => "<"
  | .lessEqual => "<="
  | .and => "and"
  | .or => "or"

/-- The level at which an operator binds. -/
def precedence : BinaryOp → Precedence
  | .or => .logicalOr
  | .and => .logicalAnd
  | .equal | .notEqual => .equality
  | .greater | .greaterEqual | .less | .lessEqual => .comparison
  | .add | .subtract => .addition
  | .multiply | .divide => .multiplication

/-- Whether an operator binds strictly tighter than a level. -/
def bindsTighter (op : BinaryOp) (level : Precedence) : Bool :=
  level < op.precedence

end BinaryOp

/-! ## Updates -/

/-- A change of a variable by one. -/
inductive UpdateOp where
  | increment
  | decrement
deriving DecidableEq

namespace UpdateOp

/-- The operator as it is written. -/
def symbol : UpdateOp → String
  | .increment => "++"
  | .decrement => "--"

/-- The amount that is added to the variable. -/
def delta : UpdateOp → Float
  | .increment => 1
  | .decrement => -1

end UpdateOp

end FlatScript
