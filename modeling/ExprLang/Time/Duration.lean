/-!
# Durations

A duration is a signed number of nanoseconds, of at most `2^63 - 1` milliseconds in either
direction.

* `Duration.ofNanos?`                     the duration of so many nanoseconds, if in range;
* `Duration.add?`, `sub?`, `neg`          sums outside the range fail, negation never does;
* `Duration.seconds`, `subsecond`         whole seconds and the rest, both toward zero.
-/

namespace ExprLang

structure Duration where
  nanos : Int
  bound : nanos.natAbs ≤ 9223372036854775807 * 1000000 := by decide
deriving DecidableEq, Repr

namespace Duration

/-- the most nanoseconds of a duration -/
def maxNanos : Nat := 9223372036854775807 * 1000000

def ofNanos? (n : Int) : Option Duration := if h : n.natAbs ≤ maxNanos then some ⟨n, h⟩ else none

def zero : Duration := { nanos := 0 }

/-- the opposite duration -/
def neg (d : Duration) : Duration := ⟨-d.nanos, by rw [Int.natAbs_neg]; exact d.bound⟩

/-- the sum, none out of range -/
def add? (a b : Duration) : Option Duration := ofNanos? (a.nanos + b.nanos)

/-- the difference, none out of range -/
def sub? (a b : Duration) : Option Duration := ofNanos? (a.nanos - b.nanos)

/-- order by length, negative durations first -/
def compare (a b : Duration) : Ordering := Ord.compare a.nanos b.nanos

/-- whole units of so many nanoseconds, toward zero -/
def whole (unit : Int) (d : Duration) : Int := d.nanos.tdiv unit

/-- whole seconds, toward zero -/
def seconds (d : Duration) : Int := d.whole 1000000000

/-- the nanoseconds beyond the whole seconds, with the sign of the duration -/
def subsecond (d : Duration) : Int := d.nanos.tmod 1000000000

theorem seconds_add_subsecond (d : Duration) :
    d.seconds * 1000000000 + d.subsecond = d.nanos := Int.tdiv_mul_add_tmod ..

theorem subsecond_bounds (d : Duration) :
    -1000000000 < d.subsecond ∧ d.subsecond < 1000000000 := by
  have habs : d.subsecond.natAbs = d.nanos.natAbs % 1000000000 := Int.natAbs_tmod ..
  omega

theorem eq_of_nanos {d e : Duration} (h : d.nanos = e.nanos) : d = e := by
  cases d
  cases e
  cases h
  rfl

theorem neg_neg (d : Duration) : d.neg.neg = d := by
  simp [neg]

theorem ofNanos?_nanos (d : Duration) : ofNanos? d.nanos = some d := by
  simp [ofNanos?, maxNanos, d.bound]

theorem ofNanos?_eq_some {n : Int} {d : Duration} : ofNanos? n = some d ↔ d.nanos = n := by
  constructor
  · intro h
    unfold ofNanos? at h
    split at h
    · cases h
      rfl
    · cases h
  · rintro rfl
    exact ofNanos?_nanos d

end Duration

end ExprLang
