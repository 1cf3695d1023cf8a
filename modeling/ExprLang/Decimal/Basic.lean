import ExprLang.Text.Digits

/-!
# Decimals

A decimal is a sign, a mantissa below `2^96` and a scale of at most 28: the number
`± mantissa / 10^scale`.  The scale is part of a decimal (`1.50` is not written `1.5`), and so is
the sign of a zero; equality and order of numbers ignore both.

* `Decimal.make?`            the decimal of given parts, if they are in range;
* `Decimal.signed`           the mantissa with its sign;
* `Decimal.compare`, `same`  order and equality of the numbers;
* `Decimal.toText`           all digits, with as many places as the scale;
* `Decimal.toInt`            the whole part;
* `Decimal.isIntegral`, `toIndex?`, `toInt64?`   whole numbers, and those in a range;
* `Decimal.normalize`        the fewest places.
-/

namespace ExprLang

/-- mantissas stay below this number, `2^96` -/
def Decimal.limit : Nat := 79228162514264337593543950336

structure Decimal where
  negative : Bool
  mantissa : Nat
  scale : Nat
  mantissa_lt : mantissa < Decimal.limit := by decide
  scale_le : scale ≤ 28 := by decide
deriving DecidableEq, Repr

namespace Decimal

theorem limit_pos : 0 < limit := by decide

def make? (negative : Bool) (mantissa scale : Nat) : Option Decimal :=
  if h : mantissa < limit ∧ scale ≤ 28 then some ⟨negative, mantissa, scale, h.1, h.2⟩ else none

def zero : Decimal := { negative := false, mantissa := 0, scale := 0 }
def one : Decimal := { negative := false, mantissa := 1, scale := 0 }

/-- an integer as a decimal; beyond the range, the last number of the range -/
def ofInt (i : Int) : Decimal where
  negative := i < 0
  mantissa := min i.natAbs (limit - 1)
  scale := 0
  mantissa_lt := by
    unfold limit
    omega

/-- a count as a decimal -/
def ofNat (n : Nat) : Decimal := ofInt n

/-- the number with its sign flipped, also of a zero -/
def neg (a : Decimal) : Decimal := { a with negative := !a.negative }

def isZero (a : Decimal) : Bool := a.mantissa == 0

/-! ## order -/

def signed (a : Decimal) : Int := if a.negative then -a.mantissa else a.mantissa

/-- the mantissa with its sign at scale `a.scale + k` -/
def signedAt (a : Decimal) (k : Nat) : Int := a.signed * 10 ^ k

/-- the order of the numbers -/
def compare (a b : Decimal) : Ordering := Ord.compare (a.signedAt b.scale) (b.signedAt a.scale)

/-- are the numbers equal -/
def same (a b : Decimal) : Bool := a.signedAt b.scale == b.signedAt a.scale

theorem neg_neg (a : Decimal) : a.neg.neg = a := by
  simp [neg]

theorem signed_neg (a : Decimal) : a.neg.signed = -a.signed := by
  cases h : a.negative <;> simp [neg, signed, h]

theorem same_iff (a b : Decimal) :
    a.same b = true ↔ a.signed * 10 ^ b.scale = b.signed * 10 ^ a.scale := by
  simp [same, signedAt]

/-! ## text -/

/-- the digits of the mantissa, at least one before the places -/
def allDigits (a : Decimal) : List Char := Text.zeroPadded (a.scale + 1) a.mantissa

/-- sign, whole digits, and as many places as the scale behind a point -/
def toChars (a : Decimal) : List Char :=
  let ds := a.allDigits
  let whole := ds.take (ds.length - a.scale)
  let places := ds.drop (ds.length - a.scale)
  (if a.negative then ['-'] else []) ++ whole ++ if a.scale = 0 then [] else '.' :: places

def toText (a : Decimal) : String := String.ofList a.toChars

theorem toList_toText (a : Decimal) : a.toText.toList = a.toChars := by simp [toText]

/-! ## whole numbers -/

def toInt (a : Decimal) : Int :=
  let whole : Int := (a.mantissa / 10 ^ a.scale : Nat)
  if a.negative then -whole else whole

/-- has the number no fraction -/
def isIntegral (a : Decimal) : Bool := a.mantissa % 10 ^ a.scale == 0

/-- a position: a whole number of 64 bits whose sign is not negative -/
def toIndex? (a : Decimal) : Option Nat :=
  if a.isIntegral && !a.negative && a.toInt.toNat < 18446744073709551616 then some a.toInt.toNat
  else none

/-- a whole number of 64 bits with a sign -/
def toInt64? (a : Decimal) : Option Int :=
  if a.isIntegral ∧ -9223372036854775808 ≤ a.toInt ∧ a.toInt < 9223372036854775808 then
    some a.toInt
  else none

/-! ## fewest places -/

/-- mantissa and scale without trailing zeros in the places -/
def strip (mantissa : Nat) : Nat → Nat × Nat
  | 0 => (mantissa, 0)
  | scale + 1 => if mantissa % 10 = 0 then strip (mantissa / 10) scale else (mantissa, scale + 1)

theorem strip_le (m s : Nat) : (strip m s).1 ≤ m ∧ (strip m s).2 ≤ s := by
  induction s generalizing m with
  | zero => exact ⟨Nat.le_refl _, Nat.le_refl _⟩
  | succ s ih =>
    rw [strip]
    split
    · have := ih (m / 10)
      omega
    · exact ⟨Nat.le_refl _, Nat.le_refl _⟩

def normalize (a : Decimal) : Decimal :=
  if a.isZero then zero
  else
    { negative := a.negative
      mantissa := (strip a.mantissa a.scale).1
      scale := (strip a.mantissa a.scale).2
      mantissa_lt := Nat.lt_of_le_of_lt (strip_le ..).1 a.mantissa_lt
      scale_le := Nat.le_trans (strip_le ..).2 a.scale_le }

end Decimal

end ExprLang
