import ExprLang.Context
import ExprLang.Eval.Access
import ExprLang.Eval.Operate
import ExprLang.Expr.Spine

/-!
# Evaluation

Expressions are evaluated from left to right, and the first error ends the evaluation.  A run of
binary operators is folded along its spine, and so is a run of members, positions and calls: the
innermost expression first, then one link after the other.

* `Evaluator`                 what an evaluation depends on besides the context;
* `Evaluator.eval`            the value of an expression;
* `Evaluator.foldOperators`   the value of an operand and the operators behind it;
* `Evaluator.foldLinks`       the value of a target and the steps behind it.

`a && b` and `a || b` are truth values; `b` is evaluated only if `a` does not decide.
-/

namespace ExprLang

structure Evaluator where
  comparer : Comparer
  host : Host

/-- the truth value of `a && b` or `a || b` where `a` decides it -/
def BinaryOp.decided? (op : BinaryOp) (left : Value) : Option Bool :=
  match op with
  | .and => if left.isTruthy then none else some false
  | .or => if left.isTruthy then some true else none
  | _ => none

namespace Evaluator

/-- the operator where the left operand does not decide: of `&&` and `||`, the truth of the right
operand is left -/
def combine (ev : Evaluator) (op : BinaryOp) (left right : Value) : Except EvalError Value :=
  match op with
  | .and | .or => .ok (.boolean right.isTruthy)
  | op => op.apply ev.comparer left right

mutual

def eval (ev : Evaluator) (c : Context) (e : Expr) : EvalM Value :=
  match e with
  | .constant v => return v
  | .var name => return c.value name
  | .unary op operand => do
    let v ← ev.eval c operand
    EvalM.ofExcept (op.apply v)
  | .binary l op r => do
    have := l.operatorSpine_lt op r
    have := Expr.binary.sizeOf_spec l op r
    let first ← ev.eval c (l.operatorSpine [(op, r)]).1
    ev.foldOperators c first (l.operatorSpine [(op, r)]).2
  | .conditional condition thenBranch elseBranch => do
    let v ← ev.eval c condition
    if v.isTruthy then ev.eval c thenBranch else ev.eval c elseBranch
  | .member t name => do
    have := Expr.accessSpine_lt (e := .member t name) rfl
    have := Expr.member.sizeOf_spec t name
    let first ← ev.eval c ((Expr.member t name).accessSpine []).1
    ev.foldLinks c first ((Expr.member t name).accessSpine []).2
  | .index t key => do
    have := Expr.accessSpine_lt (e := .index t key) rfl
    have := Expr.index.sizeOf_spec t key
    let first ← ev.eval c ((Expr.index t key).accessSpine []).1
    ev.foldLinks c first ((Expr.index t key).accessSpine []).2
  | .call t args => do
    have := Expr.accessSpine_lt (e := .call t args) rfl
    have := Expr.call.sizeOf_spec t args
    let first ← ev.eval c ((Expr.call t args).accessSpine []).1
    ev.foldLinks c first ((Expr.call t args).accessSpine []).2
  | .array elements => do
    let items ← ev.evalAll c elements
    return .sequence items
  | .dictionary pairs => do
    let entries ← ev.evalEntries c [] pairs
    return .mapping entries
termination_by sizeOf e

def foldOperators (ev : Evaluator) (c : Context) (left : Value) (links : List (BinaryOp × Expr)) :
    EvalM Value :=
  match links with
  | [] => return left
  | (op, right) :: rest =>
    match op.decided? left with
    | some b => ev.foldOperators c (.boolean b) rest
    | none => do
      let r ← ev.eval c right
      let v ← EvalM.ofExcept (ev.combine op left r)
      ev.foldOperators c v rest
termination_by operandsWeight links
decreasing_by all_goals simp only [operandsWeight]; omega

def foldLinks (ev : Evaluator) (c : Context) (target : Value) (links : List Link) : EvalM Value :=
  match links with
  | [] => return target
  | .member name :: rest => do
    let v ← ev.host.readMember target name
    ev.foldLinks c v rest
  | .index key :: rest => do
    let k ← ev.eval c key
    let v ← ev.host.valueAt target k
    ev.foldLinks c v rest
  | .method name args :: rest => do
    let vs ← ev.evalAll c args
    let v ← ev.host.callMethod target name vs
    ev.foldLinks c v rest
  | .call name args :: rest => do
    let vs ← ev.evalAll c args
    let v ← ev.host.callValue target vs (name.getD target.typeName)
    ev.foldLinks c v rest
termination_by linksWeight links
decreasing_by all_goals simp only [linksWeight, Link.weight]; omega

/-- the values of expressions, from left to right -/
def evalAll (ev : Evaluator) (c : Context) (es : List Expr) : EvalM (List Value) :=
  match es with
  | [] => return []
  | e :: rest => do
    let v ← ev.eval c e
    let vs ← ev.evalAll c rest
    return v :: vs
termination_by sizeOf es

/-- the entries of a dictionary literal, behind the entries before; no key may come twice -/
def evalEntries (ev : Evaluator) (c : Context) (before : Value.Entries)
    (pairs : List (Expr × Expr)) : EvalM Value.Entries :=
  match pairs with
  | [] => return before
  | (key, value) :: rest => do
    let k ← ev.eval c key
    let v ← ev.eval c value
    if before.contains k then throw (.duplicateKey k)
    ev.evalEntries c (before ++ [(k, v)]) rest
termination_by sizeOf pairs

end

end Evaluator

end ExprLang
