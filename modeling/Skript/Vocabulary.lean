/-!
# Kinds and operators

The five kinds that a value can have and a variable can be declared with, and the binary operators.
Four operators compute and six compare. All comparisons bind equally, weaker than sums, which bind
weaker than products.
-/
namespace Skript

inductive Kind where
  | num
  | dec
  | str
  | chr
  | bool
  deriving DecidableEq, Repr

namespace Kind

def all : List Kind := [num, dec, str, chr, bool]

/-- The keyword that names the kind. -/
def name : Kind → String
  | num => "num"
  | dec => "dec"
  | str => "str"
  | chr => "chr"
  | bool => "bool"

end Kind

inductive Operator where
  | add
  | sub
  | mul
  | div
  | less
  | greater
  | lessEqual
  | greaterEqual
  | equal
  | notEqual
  deriving DecidableEq, Repr

/-- How tightly an operator binds. -/
inductive Level where
  | relational
  | additive
  | multiplicative
  deriving DecidableEq, Repr

namespace Operator

def all : List Operator :=
  [add, sub, mul, div, less, greater, lessEqual, greaterEqual, equal, notEqual]

def level : Operator → Level
  | add | sub => .additive
  | mul | div => .multiplicative
  | less | greater | lessEqual | greaterEqual | equal | notEqual => .relational

/-- Whether the operator compares its operands. -/
def isRelational (op : Operator) : Bool :=
  op.level = .relational

def text : Operator → String
  | add => "+"
  | sub => "-"
  | mul => "*"
  | div => "/"
  | less => "<"
  | greater => ">"
  | lessEqual => "<="
  | greaterEqual => ">="
  | equal => "=="
  | notEqual => "!="

end Operator

end Skript
