import ExprLang.Decimal.Basic

/-!
# Reading decimals

Digits are taken from the left.  Before the point a digit that does not fit is an error.  Behind the
point the first digit that does not fit, or that would be the 29th place, rounds the number, a half
upward, and ends the reading.

* `readWhole`, `readPlaces`   the digits before and behind the point;
* `Decimal.ofDigits?`         digits with at most one point;
* `Decimal.ofSignedText?`     the same behind an optional sign, which a zero loses.
-/

namespace ExprLang

/-- the mantissa after further digits before the point -/
def readWhole (m : Nat) : List Char → Option Nat
  | [] => some m
  | c :: cs =>
    let next := 10 * m + Text.digitVal c
    if next < Decimal.limit then readWhole next cs else none

/-- mantissa and scale when a digit behind the point is rounded away: `up` if it is 5 or more -/
def roundLast (m s : Nat) (up : Bool) : Option (Nat × Nat) :=
  let next := if up then m + 1 else m
  if next < Decimal.limit then some (next, s)
  else if s = 0 then none
  else some ((next + 4) / 10, s - 1)

/-- mantissa and scale after further digits behind the point -/
def readPlaces (m s : Nat) : List Char → Option (Nat × Nat)
  | [] => some (m, s)
  | c :: cs =>
    let next := 10 * m + Text.digitVal c
    if s < 28 ∧ next < Decimal.limit then readPlaces next (s + 1) cs
    else roundLast m s (5 ≤ Text.digitVal c)

namespace Decimal

def ofDigits? (cs : List Char) : Option Decimal :=
  let whole := cs.takeWhile Char.isDigit
  match cs.dropWhile Char.isDigit with
  | [] => if whole.isEmpty then none else (readWhole 0 whole).bind (make? false · 0)
  | '.' :: places =>
    if places.all Char.isDigit && !(whole.isEmpty && places.isEmpty) then
      (readWhole 0 whole).bind fun m =>
        (readPlaces m 0 places).bind fun (m, s) => make? false m s
    else none
  | _ => none

/-- the negated number, which a zero is not -/
def minus (a : Decimal) : Decimal := if a.isZero then a else a.neg

def ofSignedText? : List Char → Option Decimal
  | '-' :: cs => (ofDigits? cs).map minus
  | '+' :: cs => ofDigits? cs
  | cs => ofDigits? cs

/-- is the text a sign, if any, and digits, with a point that has digits on both sides, if any -/
def isDecimalText (s : String) : Bool :=
  let body := match s.toList with
    | '-' :: cs => cs
    | '+' :: cs => cs
    | cs => cs
  !(body.takeWhile Char.isDigit).isEmpty &&
    match body.dropWhile Char.isDigit with
    | [] => true
    | '.' :: places => !places.isEmpty && places.all Char.isDigit
    | _ => false

/-- the number of a decimal text, if it is in range -/
def ofText? (s : String) : Option Decimal := ofSignedText? s.toList

end Decimal

end ExprLang
