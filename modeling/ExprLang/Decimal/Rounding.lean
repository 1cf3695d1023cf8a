import ExprLang.Decimal.Basic

/-!
# Rounding and fitting

* `divRound n d`   the quotient rounded to the nearest whole number, a half to the even neighbour;
* `excess n`       how many digits have to go before `n` is below the limit;
* `fit`            the decimal nearest to `n / 10^s` with the most places that fit;
* `Decimal.round`  the nearest whole number.
-/

namespace ExprLang

def divRound (n d : Nat) : Nat :=
  let q := n / d
  let twice := 2 * (n % d)
  if d < twice ∨ (twice = d ∧ q % 2 = 1) then q + 1 else q

def excess (n : Nat) : Nat := if n < Decimal.limit then 0 else excess (n / 10) + 1
termination_by n
decreasing_by
  have := Decimal.limit_pos
  omega

namespace Decimal

def fit (negative : Bool) (n s : Nat) : Option Decimal :=
  let cut := max (excess n) (s - 28)
  let m := divRound n (10 ^ cut)
  if s < cut then none
  else if m < limit then make? negative m (s - cut)
  else if s - cut = 0 then none
  else make? negative (divRound m 10) (s - cut - 1)

def round (a : Decimal) : Int :=
  let whole : Int := divRound a.mantissa (10 ^ a.scale)
  if a.negative then -whole else whole

end Decimal

end ExprLang
