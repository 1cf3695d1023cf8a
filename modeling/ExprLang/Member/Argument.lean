import ExprLang.Value.Basic

/-!
# Arguments of built-in methods

* `ArgumentFault`    what is wrong with the arguments of a method;
* `textArgument`, `numberArgument`, `indexArgument`   the argument at a position, as what is needed.

Positions of arguments count from one.
-/

namespace ExprLang

inductive ArgumentFault where
  /-- another number of arguments is needed -/
  | count (needed got : Nat)
  /-- the number of arguments is not between two limits -/
  | countRange (least most got : Nat)
  /-- the argument at the position is no text -/
  | notText (position : Nat)
  /-- the argument at the position is no number -/
  | notNumber (position : Nat)
  /-- the number at the position counts nothing -/
  | notIndex (position : Nat) (got : Decimal)
  /-- a part of a text would start behind its end -/
  | startPastEnd (start length : Nat)
  /-- a part of a text would end behind its end -/
  | lengthPastEnd (needed start length : Nat)
  /-- the empty text cannot be replaced -/
  | emptyReplaced
  /-- the sum is out of range -/
  | sumOutOfRange (amount : Decimal)
  /-- the text is no pattern -/
  | invalidPattern (pattern : String)
  /-- the pattern asks for what the value has not -/
  | unwritablePattern (pattern : String)
deriving DecidableEq, Repr

def ArgumentFault.message : ArgumentFault → String
  | .count needed got => "expected " ++ toString needed ++ " arguments, got " ++ toString got
  | .countRange least most got =>
    "expected " ++ toString least ++ " to " ++ toString most ++ " arguments, got " ++ toString got
  | .notText position => "argument " ++ toString position ++ " must be text"
  | .notNumber position => "argument " ++ toString position ++ " must be a number"
  | .notIndex position got =>
    "argument " ++ toString position ++ " must be a non-negative integer, got " ++ got.toText
  | .startPastEnd start length =>
    "start index " ++ toString start ++ " is past the end of a text of length " ++ toString length
  | .lengthPastEnd needed start length =>
    "length " ++ toString needed ++ " from index " ++ toString start ++
      " exceeds a text of length " ++ toString length
  | .emptyReplaced => "text to replace must not be empty"
  | .sumOutOfRange amount => "adding " ++ amount.toText ++ " is out of range"
  | .invalidPattern pattern => "invalid format '" ++ pattern ++ "'"
  | .unwritablePattern pattern => "cannot format with '" ++ pattern ++ "'"

/-- the argument at the position as a text -/
def textArgument (position : Nat) : Value → Except ArgumentFault String
  | .text s => .ok s
  | _ => .error (.notText position)

/-- the argument at the position as a number -/
def numberArgument (position : Nat) : Value → Except ArgumentFault Decimal
  | .number a => .ok a
  | _ => .error (.notNumber position)

/-- the argument at the position as a count -/
def indexArgument (position : Nat) (v : Value) : Except ArgumentFault Nat := do
  let a ← numberArgument position v
  match a.toIndex? with
  | some i => return i
  | none => throw (.notIndex position a)

end ExprLang
