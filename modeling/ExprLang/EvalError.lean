import ExprLang.Host
import ExprLang.Operator
import ExprLang.SyntaxError
import ExprLang.Value.Compare

/-!
# Errors of an evaluation

* `EvalError`         why an evaluation has no value;
* `ExpressionError`   why an expression has none: its text, or its evaluation, is at fault;
* `message`, `code`   the wording and the category.
-/

namespace ExprLang

inductive EvalError where
  /-- the operator does not fit a value of the kind -/
  | unaryOperand (op : UnaryOp) (operand : Value.Kind)
  /-- the operator does not fit values of the kinds -/
  | binaryOperands (op : BinaryOp) (left right : Value.Kind)
  /-- a value of the first kind has no positions of the second kind -/
  | indexOperands (target key : Value.Kind)
  /-- a position has to be a whole number -/
  | fractionalIndex (index : Decimal)
  | memberNotFound (member typeName : String)
  | notCallable (typeName : String)
  | indexOutOfRange (index : Decimal) (length : Nat)
  | keyNotFound (key : Value)
  | divisionByZero
  /-- the host failed to give the member's value, or the call's -/
  | hostFailed (member : String) (failure : HostFailure)
  | overflow (op : BinaryOp)
  | notIndexable (typeName : String)
  /-- a dictionary has two entries of one key -/
  | duplicateKey (key : Value)
  | comparison (error : ComparisonError)

namespace EvalError

/-- an operator and what it does not fit -/
def operatorMessage (symbol operands : String) : String :=
  "Operator '" ++ symbol ++ "' cannot be applied to " ++ operands

def message : EvalError → String
  | .unaryOperand op operand => operatorMessage op.symbol operand.name
  | .binaryOperands op left right => operatorMessage op.symbol (left.name ++ " and " ++ right.name)
  | .indexOperands target key => operatorMessage "[]" (target.name ++ " and " ++ key.name)
  | .fractionalIndex index => operatorMessage "[]" ("non-integral index " ++ index.toText)
  | .memberNotFound member typeName => "Member '" ++ member ++ "' not found on " ++ typeName
  | .notCallable typeName => "Value of type " ++ typeName ++ " is not callable"
  | .indexOutOfRange index length =>
    "Index " ++ index.toText ++ " is out of range for length " ++ toString length
  | .keyNotFound key => "Key '" ++ key.display ++ "' not found"
  | .divisionByZero => "Division by zero"
  | .hostFailed member failure =>
    "Host invocation of '" ++ member ++ "' failed: " ++ failure.message
  | .overflow op => "Numeric overflow in '" ++ op.symbol ++ "'"
  | .notIndexable typeName => "Value of type " ++ typeName ++ " cannot be indexed"
  | .duplicateKey key => "Duplicate key '" ++ key.display ++ "' in dictionary literal"
  | .comparison error => "Comparison failed: " ++ error.message

/-- the category of the error -/
def code : EvalError → String
  | .unaryOperand .. | .binaryOperands .. | .indexOperands .. | .fractionalIndex _ =>
    "EXPR:OPERATOR"
  | .memberNotFound .. => "EXPR:MEMBER_NOT_FOUND"
  | .notCallable _ => "EXPR:NOT_CALLABLE"
  | .indexOutOfRange .. => "EXPR:INDEX_OOB"
  | .keyNotFound _ => "EXPR:KEY_NOT_FOUND"
  | .divisionByZero => "EXPR:DIV_ZERO"
  | .hostFailed .. => "EXPR:HOST"
  | .overflow _ => "EXPR:OVERFLOW"
  | .notIndexable _ => "EXPR:NOT_INDEXABLE"
  | .duplicateKey _ => "EXPR:DUPLICATE_KEY"
  | .comparison _ => "EXPR:COMPARISON"

end EvalError

inductive ExpressionError where
  | badSyntax (error : SyntaxError)
  | badEvaluation (error : EvalError)

namespace ExpressionError

def message : ExpressionError → String
  | .badSyntax error => error.message
  | .badEvaluation error => "Evaluation error: " ++ error.message

def code : ExpressionError → String
  | .badSyntax error => error.code
  | .badEvaluation error => error.code

end ExpressionError

end ExprLang
