import ExprLang.Decimal.Basic

/-!
# The order of decimals

* `Decimal.units a`   the number in units of the last place that any decimal can have.

On this one scale all decimals are ordered like integers (`compare_eq_units`); equal ones are those
whose order is "equal" (`compare_eq_iff_same`).
-/

namespace ExprLang

theorem compare_mul_right {k : Int} (hk : 0 < k) (x y : Int) :
    compare (x * k) (y * k) = compare x y := by
  rcases Int.lt_trichotomy x y with h | h | h
  · rw [Std.compare_eq_lt.2 h, Std.compare_eq_lt.2 (Int.mul_lt_mul_of_pos_right h hk)]
  · rw [h]
    exact Std.compare_self.trans Std.compare_self.symm
  · rw [Std.compare_eq_gt.2 h, Std.compare_eq_gt.2 (Int.mul_lt_mul_of_pos_right h hk)]

namespace Decimal

def units (a : Decimal) : Int := a.signed * 10 ^ (28 - a.scale)

variable (a b : Decimal)

theorem units_mul (k : Nat) : a.units * 10 ^ (a.scale + k) = a.signedAt k * 10 ^ (28 : Nat) := by
  have hs : 28 - a.scale + (a.scale + k) = k + 28 := by
    have := a.scale_le
    omega
  rw [units, signedAt, Int.mul_assoc, Int.mul_assoc, ← Int.pow_add, ← Int.pow_add, hs]

theorem compare_eq_units : a.compare b = Ord.compare a.units b.units := by
  have hpos (n : Nat) : (0 : Int) < 10 ^ n := Int.pow_pos (by decide)
  have hb : b.units * 10 ^ (a.scale + b.scale) = b.signedAt a.scale * 10 ^ (28 : Nat) := by
    rw [Nat.add_comm, units_mul]
  rw [compare, ← compare_mul_right (hpos 28), ← units_mul, ← hb,
    compare_mul_right (hpos _)]

theorem compare_eq_iff_same : a.compare b = .eq ↔ a.same b = true := by
  rw [compare, Std.compare_eq_iff_eq, same, beq_iff_eq]

end Decimal

end ExprLang
