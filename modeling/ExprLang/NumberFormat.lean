import ExprLang.Decimal.Read
import ExprLang.Text.Blank

/-!
# Number formats

A number format says which character divides whole digits from places and which one, if any, may
group the whole digits.

* `NumberFormat.parse`   the number a text writes in the format;
* `NumberFormat.format`  a number written in the format, without groups.
-/

namespace ExprLang

structure NumberFormat where
  decimalSeparator : Char := '.'
  groupSeparator : Option Char := some ','
deriving DecidableEq, Repr

namespace NumberFormat

/-- a point divides the places, a comma may group the digits -/
def invariant : NumberFormat := {}

/-- a text with a point for the separator and without groups; behind the separator (`seen`) only
digits are left -/
def plain (f : NumberFormat) (seen : Bool) : List Char → Option (List Char)
  | [] => some []
  | c :: cs =>
    if c.isDigit then (f.plain seen cs).map (c :: ·)
    else if c = f.decimalSeparator ∧ seen = false then (f.plain true cs).map ('.' :: ·)
    else if some c = f.groupSeparator ∧ seen = false then f.plain seen cs
    else none

/-- the number of an unsigned text, which has a digit -/
def unsigned? (f : NumberFormat) (cs : List Char) : Option Decimal :=
  (f.plain false cs).bind Decimal.ofDigits?

def parse (f : NumberFormat) (s : String) : Option Decimal :=
  match Text.trimChars s.toList with
  | '-' :: cs => (f.unsigned? cs).map Decimal.neg
  | '+' :: cs => f.unsigned? cs
  | cs => f.unsigned? cs

def format (f : NumberFormat) (a : Decimal) : String :=
  String.ofList (a.toChars.map fun c => if c = '.' then f.decimalSeparator else c)

end NumberFormat

end ExprLang
