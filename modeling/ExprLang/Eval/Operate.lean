import ExprLang.Decimal.Arithmetic
import ExprLang.Decimal.Division
import ExprLang.Decimal.Remainder
import ExprLang.EvalError

/-!
# Operators on values

* `UnaryOp.apply`      negation of numbers and durations, logical negation of any value;
* `BinaryOp.apply`     both operands are values, so none is skipped.

Sums are of two numbers, of a text and anything, of a date-time and a duration, or of two durations.
-/

namespace ExprLang

def UnaryOp.apply (op : UnaryOp) (v : Value) : Except EvalError Value :=
  match op, v with
  | .not, v => .ok (.boolean !v.isTruthy)
  | .negate, .number a => .ok (.number a.neg)
  | .negate, .duration d => .ok (.duration d.neg)
  | .negate, v => .error (.unaryOperand .negate v.kind)

namespace BinaryOp

/-- the value, or overflow -/
def orOverflow (op : BinaryOp) (v : Option Value) : Except EvalError Value :=
  match v with
  | some v => .ok v
  | none => .error (.overflow op)

/-- the error that the operator does not fit the operands -/
def unfit (op : BinaryOp) (a b : Value) : EvalError := .binaryOperands op a.kind b.kind

/-- two texts in a row; what is no text is written in the format -/
def concat (f : NumberFormat) (a b : Value) : Value := .text (a.toText f ++ b.toText f)

def sum (f : NumberFormat) (a b : Value) : Except EvalError Value :=
  match a, b with
  | .number x, .number y => orOverflow .add ((x.add y).map .number)
  | .text _, _ | _, .text _ => .ok (concat f a b)
  | .dateTime t, .duration d | .duration d, .dateTime t =>
    orOverflow .add ((t.add? d).map .dateTime)
  | .duration x, .duration y => orOverflow .add ((x.add? y).map .duration)
  | _, _ => .error (unfit .add a b)

def difference (a b : Value) : Except EvalError Value :=
  match a, b with
  | .number x, .number y => orOverflow .subtract ((x.sub y).map .number)
  | .dateTime t, .dateTime u => .ok (.duration (t.since u))
  | .dateTime t, .duration d => orOverflow .subtract ((t.sub? d).map .dateTime)
  | .duration x, .duration y => orOverflow .subtract ((x.sub? y).map .duration)
  | _, _ => .error (unfit .subtract a b)

def product (a b : Value) : Except EvalError Value :=
  match a, b with
  | .number x, .number y => orOverflow .multiply ((x.mul y).map .number)
  | _, _ => .error (unfit .multiply a b)

def quotient (a b : Value) : Except EvalError Value :=
  match a, b with
  | .number x, .number y =>
    if y.isZero then .error .divisionByZero else orOverflow .divide ((x.div y).map .number)
  | _, _ => .error (unfit .divide a b)

def remainder (a b : Value) : Except EvalError Value :=
  match a, b with
  | .number x, .number y =>
    if y.isZero then .error .divisionByZero else orOverflow .modulo ((x.rem y).map .number)
  | _, _ => .error (unfit .modulo a b)

/-- a truth value, null if undecided -/
def truth (b : Option Bool) : Value :=
  match b with
  | some b => .boolean b
  | none => .null

/-- does the order of the operands pass the test; null if it is undecided -/
def ordered (c : Comparer) (test : Ordering → Bool) (a b : Value) : Except EvalError Value :=
  match c.compare a b with
  | .ok o => .ok (truth (o.map test))
  | .error e => .error (.comparison e)

/-- does the loose equality of the operands pass the test; null if it is undecided -/
def equated (c : Comparer) (test : Bool → Bool) (a b : Value) : Except EvalError Value :=
  match c.equals a b with
  | .ok e => .ok (truth (e.map test))
  | .error e => .error (.comparison e)

def apply (c : Comparer) (op : BinaryOp) (a b : Value) : Except EvalError Value :=
  match op with
  | .add => sum c.options.numberFormat a b
  | .subtract => difference a b
  | .multiply => product a b
  | .divide => quotient a b
  | .modulo => remainder a b
  | .equal => equated c (fun e => e) a b
  | .notEqual => equated c (fun e => !e) a b
  | .strictEqual => .ok (.boolean (c.exactEquals a b))
  | .strictNotEqual => .ok (.boolean !c.exactEquals a b)
  | .lessThan => ordered c (·.isLT) a b
  | .greaterThan => ordered c (·.isGT) a b
  | .lessEqual => ordered c (·.isLE) a b
  | .greaterEqual => ordered c (·.isGE) a b
  | .and => .ok (.boolean (a.isTruthy && b.isTruthy))
  | .or => .ok (.boolean (a.isTruthy || b.isTruthy))

end BinaryOp

end ExprLang
