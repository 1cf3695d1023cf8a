import ExprLang.Time.DateTime

/-!
# Date-times on a line

* `DateTime.instant t`   the nanoseconds from the start of day 0 to a date-time.

Outside leap seconds, adding a duration adds its nanoseconds to the instant, whole seconds, carries
and days together (`add?_eq_some_iff`), the duration between two date-times is the difference of
their instants (`nanos_since`), and the earlier one has the smaller instant (`compare_eq_lt_iff`).  A
sum is never within a leap second.
-/

namespace ExprLang.DateTime

def instant (t : DateTime) : Int := (t.day * 86400 + t.second) * 1000000000 + t.nano

variable {t u : DateTime}

theorem isLeapSecond_eq_false : t.isLeapSecond = false ↔ t.nano < 1000000000 := by
  rw [isLeapSecond, decide_eq_false_iff_not, Nat.not_le]

/-! ## sums -/

theorem carry_eq_some_iff {day seconds nanos : Int} (hl : -1000000000 ≤ nanos)
    (hr : nanos < 2000000000) : carry day seconds nanos = some t ↔
      t.isLeapSecond = false ∧ t.instant = (day * 86400 + seconds) * 1000000000 + nanos := by
  have hs := t.second_lt
  -- with the nanoseconds of one second, the date-time is at most the one of the given instant
  have inSecond {s n : Int} (h0 : 0 ≤ n) (h1 : n < 1000000000) :
      make? (day + s / 86400) (s % 86400).toNat n.toNat = some t ↔
        t.isLeapSecond = false ∧ t.instant = (day * 86400 + s) * 1000000000 + n := by
    rw [make?_eq_some_iff, isLeapSecond_eq_false, instant]
    omega
  unfold carry
  by_cases hneg : nanos < 0
  · rw [if_pos hneg]
    refine (inSecond (s := seconds - 1) (n := nanos + 1000000000) (by omega) (by omega)).trans ?_
    refine and_congr_right fun _ => ?_
    omega
  · rw [if_neg hneg]
    by_cases hbig : 1000000000 ≤ nanos
    · rw [if_pos hbig]
      refine (inSecond (s := seconds + 1) (n := nanos - 1000000000) (by omega) (by omega)).trans ?_
      refine and_congr_right fun _ => ?_
      omega
    · rw [if_neg hbig]
      exact inSecond (by omega) (by omega)

theorem add?_eq_some_iff (ht : t.isLeapSecond = false) {d : Duration} :
    t.add? d = some u ↔ u.isLeapSecond = false ∧ u.instant = t.instant + d.nanos := by
  have hn := isLeapSecond_eq_false.1 ht
  have hd := d.seconds_add_subsecond
  have hf := d.subsecond_bounds
  have hadd : t.add? d = carry t.day (t.second + d.seconds) (t.nano + d.subsecond) :=
    if_neg (Nat.not_le.2 hn)
  rw [hadd, carry_eq_some_iff (by omega) (by omega)]
  refine and_congr_right fun _ => ?_
  unfold instant
  omega

theorem sub?_eq_some_iff (ht : t.isLeapSecond = false) {d : Duration} :
    t.sub? d = some u ↔ u.isLeapSecond = false ∧ u.instant = t.instant - d.nanos := by
  rw [sub?, add?_eq_some_iff ht]
  rfl

/-! ## differences and order -/

theorem nanos_since (ht : t.isLeapSecond = false) (hu : u.isLeapSecond = false) :
    (t.since u).nanos = t.instant - u.instant := by
  rw [isLeapSecond_eq_false] at ht hu
  have hleap : leapBetween t u = 0 := by
    rw [leapBetween, if_neg (by omega), if_neg (by omega)]
  show nanosSince t u = _
  rw [nanosSince, hleap, instant, instant]
  omega

theorem compare_eq_lt_iff (ht : t.isLeapSecond = false) (hu : u.isLeapSecond = false) :
    t.compare u = .lt ↔ t.instant < u.instant := by
  rw [isLeapSecond_eq_false] at ht hu
  have := t.second_lt
  have := u.second_lt
  rw [compare, Ordering.then_eq_lt, Ordering.then_eq_lt, Std.compare_eq_lt, Std.compare_eq_lt,
    Std.compare_eq_lt, Std.compare_eq_iff_eq, Std.compare_eq_iff_eq, instant, instant]
  omega

end ExprLang.DateTime
