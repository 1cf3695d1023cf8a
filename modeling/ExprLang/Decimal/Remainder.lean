import ExprLang.Decimal.Arithmetic

/-!
# Remainders

The remainder of the division toward zero is taken at the larger scale of the operands, by long
division in digits of 32 bits.

A divisor of one or two digits leaves the true remainder.  With three, both numbers are shifted
until the leading digit of the divisor is at least `2^31`, and the digits of the dividend are
brought down one by one.  The upper digits of window and divisor suggest the next digit of the
quotient, and what the suggestion takes too much is added back.  A suggestion keeps its low 32 bits:
one that does not fit belongs to a window that leads with the leading digit of the divisor, and what
is left there is below the divisor, but not always the true remainder.

* `windowRem d r`    what one digit of the quotient leaves of the window `r`;
* `longRem d k n`    what is left of `n` after `k` digits of the quotient;
* `wideRem d n`      the remainder for a divisor of three digits;
* `Decimal.rem`      the remainder of two decimals.

`windowRem_eq_mod`: a suggestion that fits leaves the true remainder.
-/

namespace ExprLang

/-! ## long division -/

/-- the digits above the lowest two -/
def upperDigits (n : Nat) : Nat := n / 18446744073709551616

/-- the lowest two digits, as one number -/
def lowerDigits (n : Nat) : Nat := n % 18446744073709551616

def windowRem (d r : Nat) : Nat :=
  let digit := upperDigits r / upperDigits d % 4294967296
  let left := upperDigits r % upperDigits d * 18446744073709551616 + lowerDigits r
  (((left : Int) - (digit * lowerDigits d : Nat)) % d).toNat

/-- what is left of `n` when its lowest `k` digits have been brought down, one for each digit of the
quotient by `d` -/
def longRem (d : Nat) : Nat → Nat → Nat
  | 0, n => n
  | k + 1, n => windowRem d (longRem d k (n / 4294967296) * 4294967296 + n % 4294967296)

/-- the remainder of `n` by a divisor of three digits: when both are shifted until the leading digit
of the divisor is at least `2^31`, the dividend has at most seven digits, the upper three of them
are below the divisor, and four are brought down -/
def wideRem (d n : Nat) : Nat :=
  let shift := 2 ^ (95 - d.log2)
  longRem (d * shift) 4 (n * shift) / shift

theorem upperDigits_add_lowerDigits (n : Nat) :
    upperDigits n * 18446744073709551616 + lowerDigits n = n := by
  unfold upperDigits lowerDigits
  omega

theorem windowRem_lt {d : Nat} (hd : 0 < d) (r : Nat) : windowRem d r < d := by
  have h0 : (d : Int) ≠ 0 := by omega
  have h1 : (0 : Int) < d := by omega
  unfold windowRem
  simp only
  rw [Int.toNat_lt (Int.emod_nonneg _ h0)]
  exact Int.emod_lt_of_pos _ h1

/-- a suggestion that fits in a digit leaves the true remainder of the window -/
theorem windowRem_eq_mod {d r : Nat} (h : upperDigits r / upperDigits d < 4294967296) :
    windowRem d r = r % d := by
  have hr := upperDigits_add_lowerDigits r
  have hd := upperDigits_add_lowerDigits d
  have hu := Nat.div_add_mod' (upperDigits r) (upperDigits d)
  unfold windowRem
  simp only [Nat.mod_eq_of_lt h]
  generalize upperDigits r / upperDigits d = digit at hu
  generalize upperDigits r % upperDigits d = left at hu
  have hleft : left * 18446744073709551616 + lowerDigits r + digit * d
      = r + digit * lowerDigits d := by
    rw [← hr, ← hu, ← hd]
    grind
  have hint : ((left * 18446744073709551616 + lowerDigits r : Nat) : Int)
      - (digit * lowerDigits d : Nat) = r - digit * d := by
    omega
  rw [hint, Int.sub_mul_emod_self_right]
  rfl

/-! ## decimals -/

namespace Decimal

def rem (a b : Decimal) : Option Decimal :=
  let s := max a.scale b.scale
  let n := (a.alignedTo s).natAbs
  let d := (b.alignedTo s).natAbs
  if a.isZero || n == d then some zero
  else if n < d then some a
  else
    let r := if d < 18446744073709551616 then n % d else wideRem d n
    make? (a.negative && r != 0) r s

end Decimal

end ExprLang
