import ExprLang.Text.Digits

/-!
# Written fields

How the numbers of a date-time are written.

* `Padding`       what a short number is filled up with;
* `twoPlaces`     a number of two digits;
* `filled`        a number filled up to a width, its sign counted;
* `yearChars`     a year: four digits, and a sign outside the years 0 to 9999.
-/

namespace ExprLang

inductive Padding where
  | none
  | zero
  | space
deriving DecidableEq, Repr

def twoPlaces (pad : Padding) (n : Nat) : List Char :=
  let tens :=
    if n / 10 = 0 then
      match pad with
      | .none => []
      | .zero => ['0']
      | .space => [' ']
    else [Text.digitChar (n / 10)]
  tens ++ [Text.digitChar (n % 10)]

def filled (pad : Padding) (width : Nat) (plus : Bool) (i : Int) : List Char :=
  let sign := if i < 0 then ['-'] else if plus then ['+'] else []
  let ds := Text.digits i.natAbs
  match pad with
  | .none => sign ++ ds
  | .zero => sign ++ Text.padLeft (width - sign.length) '0' ds
  | .space => Text.padLeft width ' ' (sign ++ ds)

def yearChars (pad : Padding) (y : Int) : List Char :=
  if 0 ≤ y ∧ y < 10000 then filled pad 4 false y else filled pad 5 true y

/-- the fraction of a second: nothing, or a point and the least of three, six and nine digits that
loses nothing -/
def fractionChars (nano : Nat) : List Char :=
  if nano = 0 then []
  else if nano % 1000000 = 0 then '.' :: Text.zeroPadded 3 (nano / 1000000)
  else if nano % 1000 = 0 then '.' :: Text.zeroPadded 6 (nano / 1000)
  else '.' :: Text.zeroPadded 9 nano

end ExprLang
