import ExprLang.Eval

/-!
# The meaning of expressions

The evaluator walks along spines.  Here the value of an expression is had from the values of its
parts, by recursion on the tree.

* `Evaluator.operate`         a binary operator on a value and an operand that may not be needed;
* `Evaluator.denote`          the meaning of an expression;
* `Evaluator.denoteAll`       the meanings of expressions, from left to right;
* `Evaluator.denoteEntries`   the entries of a dictionary literal.

A meaning is an evaluation: it asks the host on its way to a value or to the first error.
-/

namespace ExprLang

namespace Evaluator

/-- the operator on a value and a right operand, which `&&` and `||` evaluate only if the left one
does not decide -/
def operate (ev : Evaluator) (op : BinaryOp) (left : Value) (right : EvalM Value) : EvalM Value :=
  match op with
  | .and =>
    if left.isTruthy then do
      let r ← right
      return .boolean r.isTruthy
    else return .boolean false
  | .or =>
    if left.isTruthy then return .boolean true
    else do
      let r ← right
      return .boolean r.isTruthy
  | op => do
    let r ← right
    EvalM.ofExcept (op.apply ev.comparer left r)

mutual

def denote (ev : Evaluator) (c : Context) : Expr → EvalM Value
  | .constant v => return v
  | .var name => return c.value name
  | .unary op operand => do
    let v ← ev.denote c operand
    EvalM.ofExcept (op.apply v)
  | .binary l op r => do
    let left ← ev.denote c l
    ev.operate op left (ev.denote c r)
  | .conditional condition thenBranch elseBranch => do
    let v ← ev.denote c condition
    if v.isTruthy then ev.denote c thenBranch else ev.denote c elseBranch
  | .member t name => do
    let target ← ev.denote c t
    ev.host.readMember target name
  | .index t key => do
    let target ← ev.denote c t
    let k ← ev.denote c key
    ev.host.valueAt target k
  | .call (.member t name) args => do
    let receiver ← ev.denote c t
    let vs ← ev.denoteAll c args
    ev.host.callMethod receiver name vs
  | .call t args => do
    let callee ← ev.denote c t
    let vs ← ev.denoteAll c args
    ev.host.callValue callee vs (t.varName?.getD callee.typeName)
  | .array elements => do
    let items ← ev.denoteAll c elements
    return .sequence items
  | .dictionary pairs => do
    let entries ← ev.denoteEntries c [] pairs
    return .mapping entries

def denoteAll (ev : Evaluator) (c : Context) : List Expr → EvalM (List Value)
  | [] => return []
  | e :: rest => do
    let v ← ev.denote c e
    let vs ← ev.denoteAll c rest
    return v :: vs

def denoteEntries (ev : Evaluator) (c : Context) (before : Value.Entries) :
    List (Expr × Expr) → EvalM Value.Entries
  | [] => return before
  | (key, value) :: rest => do
    let k ← ev.denote c key
    let v ← ev.denote c value
    if before.contains k then throw (.duplicateKey k)
    ev.denoteEntries c (before ++ [(k, v)]) rest

end

end Evaluator

end ExprLang
