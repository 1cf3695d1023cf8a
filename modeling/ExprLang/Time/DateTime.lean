import ExprLang.Time.Calendar
import ExprLang.Time.Duration

/-!
# Date-times

A date-time is a day, a second of that day and the nanoseconds within the second.  From the last
second of a minute the nanoseconds may run on for a further second: that is a leap second.

* `DateTime.make?`          a date-time of given parts, if they are in range;
* `DateTime.add?`, `sub?`   a date-time moved by a duration, none outside the calendar's range;
* `DateTime.since`          the duration between two date-times;
* `DateTime.compare`        by day, second and nanosecond;
* `year`, `month`, `dayOfMonth`, `hour`, `minute`, `clockSecond`   the parts.
-/

namespace ExprLang

structure DateTime where
  day : Int
  second : Nat
  nano : Nat
  day_ge : -95746129 ≤ day := by decide
  day_le : day ≤ 95745399 := by decide
  second_lt : second < 86400 := by decide
  nano_lt : nano < 2000000000 := by decide
  leap : nano < 1000000000 ∨ second % 60 = 59 := by decide
deriving DecidableEq, Repr

namespace DateTime

def make? (day : Int) (second nano : Nat) : Option DateTime :=
  if h : (Calendar.minDay ≤ day ∧ day ≤ Calendar.maxDay) ∧ second < 86400 ∧ nano < 2000000000 ∧
      (nano < 1000000000 ∨ second % 60 = 59) then
    some ⟨day, second, nano, h.1.1, h.1.2, h.2.1, h.2.2.1, h.2.2.2⟩
  else none

theorem make?_eq_some_iff {t : DateTime} {day : Int} {second nano : Nat} :
    make? day second nano = some t ↔ t.day = day ∧ t.second = second ∧ t.nano = nano := by
  constructor
  · intro h
    unfold make? at h
    split at h
    · cases h
      exact ⟨rfl, rfl, rfl⟩
    · cases h
  · rintro ⟨rfl, rfl, rfl⟩
    exact dif_pos ⟨⟨t.day_ge, t.day_le⟩, t.second_lt, t.nano_lt, t.leap⟩

/-- is this a moment within a leap second -/
def isLeapSecond (t : DateTime) : Bool := 1000000000 ≤ t.nano

/-! ## parts -/

def date (t : DateTime) : Calendar.CivilDate := .ofDayNumber t.day
def year (t : DateTime) : Int := t.date.year
def month (t : DateTime) : Nat := t.date.month
def dayOfMonth (t : DateTime) : Nat := t.date.day
def dayOfYear (t : DateTime) : Nat := Calendar.ordinalOf t.day
def dayOfWeek (t : DateTime) : Nat := Calendar.weekdayFromSunday t.day
def hour (t : DateTime) : Nat := t.second / 3600
def minute (t : DateTime) : Nat := t.second % 3600 / 60

/-- the second of the minute; a leap second belongs to the second 59 -/
def secondOfMinute (t : DateTime) : Nat := t.second % 60

/-- the second a clock shows: 60 in a leap second -/
def clockSecond (t : DateTime) : Nat := t.second % 60 + t.nano / 1000000000

/-- the nanoseconds a clock shows -/
def clockNano (t : DateTime) : Nat := t.nano % 1000000000

/-- the same day at midnight -/
def midnight (t : DateTime) : DateTime :=
  { day := t.day, second := 0, nano := 0, day_ge := t.day_ge, day_le := t.day_le }

def compare (a b : DateTime) : Ordering :=
  (Ord.compare a.day b.day).then ((Ord.compare a.second b.second).then (Ord.compare a.nano b.nano))

/-! ## moving by a duration -/

/-- the date-time `seconds` and `nanos` after the start of a day, for `nanos` of at most two seconds
in either direction: one second is carried or borrowed, and whole days go into the date -/
def carry (day seconds nanos : Int) : Option DateTime :=
  let (seconds, nanos) :=
    if nanos < 0 then (seconds - 1, nanos + 1000000000)
    else if 1000000000 ≤ nanos then (seconds + 1, nanos - 1000000000)
    else (seconds, nanos)
  make? (day + seconds / 86400) (seconds % 86400).toNat nanos.toNat

/-- the date-time moved by a duration.

A leap second is left forward through its end, backward through its start; a move of less than a
second that does neither stays inside it. -/
def add? (t : DateTime) (d : Duration) : Option DateTime :=
  let s := d.seconds
  let f := d.subsecond
  if 1000000000 ≤ t.nano then
    if 0 < s ∨ (0 < f ∧ 2000000000 ≤ t.nano + f) then
      carry t.day (t.second + s) (t.nano - 1000000000 + f)
    else if s < 0 then carry t.day (t.second + 1 + s) (t.nano - 1000000000 + f)
    else make? t.day t.second (t.nano + f).toNat
  else carry t.day (t.second + s) (t.nano + f)

/-- the date-time moved back by a duration -/
def sub? (t : DateTime) (d : Duration) : Option DateTime := t.add? d.neg

/-- one second for a leap second that lies between the two times of day -/
def leapBetween (a b : DateTime) : Int :=
  if b.second < a.second ∧ 1000000000 ≤ b.nano then 1
  else if a.second < b.second ∧ 1000000000 ≤ a.nano then -1
  else 0

/-- the nanoseconds from `b` to `a` -/
def nanosSince (a b : DateTime) : Int :=
  ((a.day - b.day) * 86400 + ((a.second : Int) - b.second) + leapBetween a b) * 1000000000 +
    ((a.nano : Int) - b.nano)

theorem leapBetween_bound (a b : DateTime) : -1 ≤ leapBetween a b ∧ leapBetween a b ≤ 1 := by
  unfold leapBetween
  split
  · omega
  · split <;> omega

def since (a b : DateTime) : Duration where
  nanos := nanosSince a b
  bound := by
    have h := leapBetween_bound a b
    have := a.day_ge; have := a.day_le; have := b.day_ge; have := b.day_le
    have := a.second_lt; have := b.second_lt; have := a.nano_lt; have := b.nano_lt
    unfold nanosSince
    omega

end DateTime

end ExprLang
