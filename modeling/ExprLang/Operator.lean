/-!
# Operators

* `UnaryOp`, `BinaryOp`     the operators, with the symbols they are named by;
* `BinaryOp.precedence`     how tightly a binary operator binds: six levels, all left-associative.
-/

namespace ExprLang

inductive UnaryOp where
  | negate
  | not
deriving DecidableEq, Repr

def UnaryOp.symbol : UnaryOp → String
  | .negate => "-"
  | .not => "!"

inductive BinaryOp where
  | add
  | subtract
  | multiply
  | divide
  | modulo
  | equal
  | notEqual
  | strictEqual
  | strictNotEqual
  | lessThan
  | greaterThan
  | lessEqual
  | greaterEqual
  | and
  | or
deriving DecidableEq, Repr

namespace BinaryOp

def symbol : BinaryOp → String
  | add => "+"
  | subtract => "-"
  | multiply => "*"
  | divide => "/"
  | modulo => "%"
  | equal => "=="
  | notEqual => "!="
  | strictEqual => "==="
  | strictNotEqual => "!=="
  | lessThan => "<"
  | greaterThan => ">"
  | lessEqual => "<="
  | greaterEqual => ">="
  | and => "&&"
  | or => "||"

def precedence : BinaryOp → Nat
  | or => 1
  | and => 2
  | equal | notEqual | strictEqual | strictNotEqual => 3
  | lessThan | greaterThan | lessEqual | greaterEqual => 4
  | add | subtract => 5
  | multiply | divide | modulo => 6

/-- the operators, in a fixed order -/
def all : List BinaryOp :=
  [add, subtract, multiply, divide, modulo, equal, notEqual, strictEqual, strictNotEqual, lessThan,
    greaterThan, lessEqual, greaterEqual, and, or]

theorem mem_all (op : BinaryOp) : op ∈ all := by
  cases op <;> decide

theorem precedence_pos (op : BinaryOp) : 1 ≤ op.precedence := by
  cases op <;> decide

theorem precedence_le (op : BinaryOp) : op.precedence ≤ 6 := by
  cases op <;> decide

end BinaryOp

end ExprLang
