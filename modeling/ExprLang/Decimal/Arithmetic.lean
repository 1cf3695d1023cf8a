import ExprLang.Decimal.Rounding

/-!
# Sums and products

Sums are exact at the larger scale of the operands, products at the sum of the scales; a result that
does not fit is rounded by `fit`.  A zero operand of a sum leaves the other operand as it is.

* `Decimal.add`, `Decimal.sub`, `Decimal.mul`
-/

namespace ExprLang.Decimal

/-- the mantissa with its sign at scale `s`, for `s` at least the scale -/
def alignedTo (s : Nat) (a : Decimal) : Int := a.signedAt (s - a.scale)

/-- the sum, none on overflow -/
def add (a b : Decimal) : Option Decimal :=
  if a.isZero then some b
  else if b.isZero then some a
  else
    let s := max a.scale b.scale
    let sum := a.alignedTo s + b.alignedTo s
    fit (sum < 0) sum.natAbs s

/-- the difference, none on overflow -/
def sub (a b : Decimal) : Option Decimal :=
  if b.isZero then some (if a.isZero then b else a) else add a b.neg

/-- the number, without the sign of a zero -/
def plainZero (a : Decimal) : Decimal := { a with negative := a.negative && !a.isZero }

/-- the product, none on overflow.

Of two mantissas below `2^32`, a product with more than 47 places is a plain `0`, and a product that
rounds to zero has no sign. -/
def mul (a b : Decimal) : Option Decimal :=
  let negative := a.negative != b.negative
  let s := a.scale + b.scale
  if a.isZero || b.isZero then some zero
  else if a.mantissa < 4294967296 ∧ b.mantissa < 4294967296 then
    if 47 < s then some zero
    else (fit negative (a.mantissa * b.mantissa) s).map plainZero
  else fit negative (a.mantissa * b.mantissa) s

end ExprLang.Decimal
