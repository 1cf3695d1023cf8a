import ExprLang.Operator
import ExprLang.Value.Basic

/-!
# Expressions

* `Expr`           the trees of expressions;
* `Expr.depth`     the length of the longest path through a tree;
* `Expr.mentions`  the variables of a tree, from left to right, as often as they occur;
* `Expr.names`     the same, each at its first place only.

The names of members and methods are no variables.
-/

namespace ExprLang

inductive Expr where
  | constant (v : Value)
  | var (name : String)
  | unary (op : UnaryOp) (operand : Expr)
  | binary (left : Expr) (op : BinaryOp) (right : Expr)
  | conditional (condition thenBranch elseBranch : Expr)
  | member (target : Expr) (name : String)
  | index (target key : Expr)
  /-- a call; of a member, it is the call of a method -/
  | call (target : Expr) (args : List Expr)
  | array (elements : List Expr)
  | dictionary (pairs : List (Expr × Expr))

namespace Expr

/-- the value of a constant -/
def constant? : Expr → Option Value
  | .constant v => some v
  | _ => none

mutual

def depth : Expr → Nat
  | .constant _ | .var _ => 1
  | .unary _ e => e.depth + 1
  | .binary l _ r => max l.depth r.depth + 1
  | .conditional c t e => max (max c.depth t.depth) e.depth + 1
  | .member t _ => t.depth + 1
  | .index t k => max t.depth k.depth + 1
  | .call t args => max t.depth (depthOfList args) + 1
  | .array es => depthOfList es + 1
  | .dictionary ps => depthOfPairs ps + 1

/-- the greatest depth in a list, zero of none -/
def depthOfList : List Expr → Nat
  | [] => 0
  | e :: es => max e.depth (depthOfList es)

/-- the greatest depth in a list of pairs, zero of none -/
def depthOfPairs : List (Expr × Expr) → Nat
  | [] => 0
  | (k, v) :: ps => max (max k.depth v.depth) (depthOfPairs ps)

end

mutual

def mentions : Expr → List String
  | .constant _ => []
  | .var name => [name]
  | .unary _ e => e.mentions
  | .binary l _ r => l.mentions ++ r.mentions
  | .conditional c t e => c.mentions ++ t.mentions ++ e.mentions
  | .member t _ => t.mentions
  | .index t k => t.mentions ++ k.mentions
  | .call t args => t.mentions ++ mentionsOfList args
  | .array es => mentionsOfList es
  | .dictionary ps => mentionsOfPairs ps

/-- the variables of a list -/
def mentionsOfList : List Expr → List String
  | [] => []
  | e :: es => e.mentions ++ mentionsOfList es

/-- the variables of a list of pairs -/
def mentionsOfPairs : List (Expr × Expr) → List String
  | [] => []
  | (k, v) :: ps => k.mentions ++ v.mentions ++ mentionsOfPairs ps

end

def names (e : Expr) : List String := e.mentions.eraseDups

end Expr

end ExprLang
