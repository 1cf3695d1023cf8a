import ExprLang.Decimal.Rounding

/-!
# Quotients

A quotient is found digit by digit, starting from the whole quotient of the mantissas: as long as a
remainder is left, as many places as fit are brought down, at most nine at a time.  The last place
is rounded, a half to the even neighbour.  A quotient that met a remainder then loses trailing zeros
in steps of eight, four, two and one places (`stripPlaces`); such a step may leave zeros behind, so
`10 / 4` is `2.50`.

* `Quotient`            a division under way;
* `Quotient.bringDown`  further places;
* `Quotient.finish`     the division run to its end;
* `Decimal.div`         the quotient of two decimals.
-/

namespace ExprLang

structure Quotient where
  quotient : Nat
  remainder : Nat
  scale : Int

namespace Quotient

/-- can `p` places be brought down -/
def roomFor (x : Quotient) (p : Nat) : Bool :=
  x.quotient * 10 ^ p < Decimal.limit && x.scale + p ≤ 28

/-- the most places up to `p` that can be brought down -/
def roomUpTo (x : Quotient) : Nat → Nat
  | 0 => 0
  | p + 1 => if x.roomFor (p + 1) then p + 1 else x.roomUpTo p

/-- how many places are brought down next -/
def places (x : Quotient) : Nat :=
  if x.remainder = 0 then min 9 (-x.scale).toNat else x.roomUpTo 9

def bringDown (d p : Nat) (x : Quotient) : Quotient where
  quotient := x.quotient * 10 ^ p + x.remainder * 10 ^ p / d
  remainder := x.remainder * 10 ^ p % d
  scale := x.scale + p

/-- the quotient rounded by what is left, a half to the even neighbour -/
def rounded (d : Nat) (x : Quotient) : Nat :=
  if d < 2 * x.remainder ∨ (2 * x.remainder = d ∧ x.quotient % 2 = 1) then x.quotient + 1
  else x.quotient

/-- a tenth of `n`, a half to the even neighbour unless something was left below it -/
def tenth (n : Nat) (left : Bool) : Nat :=
  if 5 < n % 10 ∨ (n % 10 = 5 ∧ (left ∨ n / 10 % 2 = 1)) then n / 10 + 1 else n / 10

/-- mantissa and scale of a result that may have reached the limit and then loses one place -/
def settle (m : Nat) (s : Int) (left : Bool) : Option (Nat × Nat) :=
  if m < Decimal.limit then (if s < 0 then none else some (m, s.toNat))
  else if s < 1 then none
  else some (tenth m left, (s - 1).toNat)

theorem roomUpTo_spec (x : Quotient) (p : Nat) :
    x.roomUpTo p = 0 ∨ x.roomFor (x.roomUpTo p) = true := by
  induction p with
  | zero => exact Or.inl rfl
  | succ p ih =>
    rw [roomUpTo]
    split
    · next h => exact Or.inr h
    · exact ih

theorem scale_lt_of_places (x : Quotient) (hp : x.places ≠ 0) : x.scale < 28 := by
  unfold places at hp
  split at hp
  · omega
  · rcases roomUpTo_spec x 9 with h0 | h0
    · exact absurd h0 hp
    · simp only [roomFor, Bool.and_eq_true, decide_eq_true_eq] at h0
      omega

def finish (d : Nat) (x : Quotient) (met : Bool) : Option (Nat × Nat × Bool) :=
  if x.remainder = 0 ∧ 0 ≤ x.scale then some (x.quotient, x.scale.toNat, met)
  else
    let met := met || x.remainder != 0
    if x.remainder ≠ 0 ∧ x.places < 9 ∧ x.scale + x.places < 0 then none
    else if x.places = 0 then (settle (x.rounded d) x.scale false).map fun (m, s) => (m, s, met)
    else if Decimal.limit ≤ x.quotient * 10 ^ x.places then none
    else
      let y := x.bringDown d x.places
      if Decimal.limit ≤ y.quotient then
        (settle y.quotient y.scale (y.remainder != 0)).map fun (m, s) => (m, s, met)
      else finish d y met
termination_by (28 - x.scale).toNat
decreasing_by
  rename_i hp _ _
  have := scale_lt_of_places x hp
  simp only [bringDown]
  omega

end Quotient

/-! ## trailing zeros -/

/-- eight zeros at a time, as long as the last 32 bits are zero -/
def stripEights (m s : Nat) : Nat × Nat :=
  if m % 4294967296 = 0 ∧ 8 ≤ s ∧ m % 100000000 = 0 then stripEights (m / 100000000) (s - 8)
  else (m, s)
termination_by s

/-- `k` zeros, once, if the mantissa is a multiple of `multiple` -/
def stripOnce (multiple k : Nat) (x : Nat × Nat) : Nat × Nat :=
  if x.1 % multiple = 0 ∧ k ≤ x.2 ∧ x.1 % 10 ^ k = 0 then (x.1 / 10 ^ k, x.2 - k) else x

/-- mantissa and scale after the steps of eight, four, two and one zeros -/
def stripPlaces (m s : Nat) : Nat × Nat :=
  stripOnce 2 1 (stripOnce 4 2 (stripOnce 16 4 (stripEights m s)))

def Decimal.div (a b : Decimal) : Option Decimal :=
  if a.isZero then some zero
  else
    let start : Quotient :=
      ⟨a.mantissa / b.mantissa, a.mantissa % b.mantissa, (a.scale : Int) - b.scale⟩
    (start.finish b.mantissa false).bind fun (m, s, met) =>
      let (m, s) := if met then stripPlaces m s else (m, s)
      make? (a.negative != b.negative && m != 0) m s

end ExprLang
