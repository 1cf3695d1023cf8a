import Mathlib.Data.Int.GCD
import ExprLang.Proofs.Decimal.Rounding
import ExprLang.Proofs.Decimal.Whole
import ExprLang.Proofs.Member.Mapping
import ExprLang.Proofs.Time.Action

/-!
# Amounts of time

* `amountMembers`                     the members that add an amount, each with the milliseconds of
                                      its unit;
* `Decimal.Lasts a unit k`            the amount `a` of the unit is `k` whole milliseconds;
* `DateTime.atSecond t s`             the start of second `s` of the same day;
* `DateTime.wholeSecond t`            the date-time without the nanoseconds of its second;
* `Expr.clock t`                      the hours, minutes and seconds of a date-time, added to its day;
* `Evaluator.Moves ev c e o`          the expression gives the date-time `o`, and fails if there is
                                      none;
* `Evaluator.AddsAmounts ev c t dt`   what the four members say about the date-time `dt` is of one
                                      line of instants.

The span of an amount is its exact product with the unit, a half rounded to the even neighbour
(`millisecondsOf?_exact`); whole milliseconds are the span themselves, and so many that no number
counts them are no duration either (`Lasts.millisecondsOf?`).  Outside leap seconds a whole amount
moves the instant by its nanoseconds (`addAmount?_eq_some_iff`), and all that is said about one
amount after another is about sums of integers.  A unit is made of the primes 2, 5 and 3, the last
one at most three times, so a whole amount has ten places at most (`lasts_iff`), and two amounts that
lead from one date-time to another are added exactly.
-/

namespace ExprLang

def amountMembers : List (String × Nat) :=
  [("AddDays", 86400000), ("AddHours", 3600000), ("AddMinutes", 60000), ("AddSeconds", 1000)]

theorem days_mem : ("AddDays", 86400000) ∈ amountMembers := by decide
theorem hours_mem : ("AddHours", 3600000) ∈ amountMembers := by decide
theorem minutes_mem : ("AddMinutes", 60000) ∈ amountMembers := by decide
theorem seconds_mem : ("AddSeconds", 1000) ∈ amountMembers := by decide

def Decimal.Lasts (a : Decimal) (unit : Nat) (k : Int) : Prop := a.signed * unit = k * 10 ^ a.scale

variable {a b : Decimal} {name : String} {unit : Nat} {j k : Int}

/-- a unit divides 27 parts of `10^10`, so a decimal part of it has ten places at most -/
theorem exists_parts (hu : (name, unit) ∈ amountMembers) :
    ∃ parts : Nat, unit * parts = 27 * 10 ^ 10 ∧ 0 < parts ∧ parts ≤ 270000000 := by
  simp only [amountMembers, List.mem_cons, List.not_mem_nil, or_false, Prod.mk.injEq] at hu
  rcases hu with ⟨-, rfl⟩ | ⟨-, rfl⟩ | ⟨-, rfl⟩ | ⟨-, rfl⟩
  · exact ⟨3125, by decide⟩
  · exact ⟨75000, by decide⟩
  · exact ⟨4500000, by decide⟩
  · exact ⟨270000000, by decide⟩

theorem unit_lt (hu : (name, unit) ∈ amountMembers) : unit < Decimal.limit := by
  obtain ⟨parts, h, hpos, -⟩ := exists_parts hu
  calc unit ≤ unit * parts := Nat.le_mul_of_pos_right unit hpos
    _ = 27 * 10 ^ 10 := h
    _ < Decimal.limit := by decide

namespace Decimal

/-! ## whole milliseconds -/

theorem lasts_iff {parts : Nat} (hparts : unit * parts = 27 * 10 ^ 10) (hpos : 0 < parts) :
    a.Lasts unit k ↔ ∃ m : Int, a.Denotes m 10 ∧ 27 * m = k * parts := by
  have hparts' : (unit : Int) * parts = 27 * 10 ^ 10 := by exact_mod_cast hparts
  have hproduct : a.signed * unit * parts = 27 * (a.signed * 10 ^ 10) := by
    rw [Int.mul_assoc, hparts', Int.mul_left_comm]
  constructor
  · intro h
    have hk : 27 * (a.signed * 10 ^ 10) = k * parts * 10 ^ a.scale := by
      rw [← hproduct, h, Int.mul_right_comm]
    have hgcd : Int.gcd 27 (10 ^ a.scale) = 1 := by
      rw [Int.gcd, Int.natAbs_pow]
      exact Nat.Coprime.pow_right a.scale (by decide)
    -- a power of ten takes no part in the 27, so the milliseconds do
    obtain ⟨m, hm⟩ := Int.dvd_of_dvd_mul_left_of_gcd_one ⟨_, hk.symm⟩ hgcd
    refine ⟨m, Int.eq_of_mul_eq_mul_left (by decide : (27 : Int) ≠ 0) ?_, hm.symm⟩
    rw [hk, hm, Int.mul_assoc]
  · rintro ⟨m, hm, hk⟩
    refine Int.eq_of_mul_eq_mul_right (Int.natCast_ne_zero_iff_pos.2 hpos) ?_
    rw [hproduct, hm, ← Int.mul_assoc, hk, Int.mul_right_comm]

theorem lasts_of_denotes (h : a.Denotes j 0) (hk : j * unit = k) : a.Lasts unit k := by
  rw [Lasts, denotes_zero_iff.1 h, Int.mul_right_comm, hk]

theorem Lasts.neg (h : a.Lasts unit k) : a.neg.Lasts unit (-k) := by
  rw [Lasts, signed_neg, Int.neg_mul, h, Int.neg_mul]
  rfl

/-- amounts of so few milliseconds are added exactly -/
theorem Lasts.add (hu : (name, unit) ∈ amountMembers) (ha : a.Lasts unit j) (hb : b.Lasts unit k)
    (hj : j.natAbs < 10000000000000000000) (hk : k.natAbs < 10000000000000000000) :
    ∃ c, a.add b = some c ∧ c.Lasts unit (j + k) := by
  obtain ⟨parts, hparts, hpos, hle⟩ := exists_parts hu
  obtain ⟨m, hm, hmj⟩ := (lasts_iff hparts hpos).1 ha
  obtain ⟨n, hn, hnk⟩ := (lasts_iff hparts hpos).1 hb
  have hbound {i l : Int} (hi : i.natAbs < 10000000000000000000) (h : 27 * l = i * parts) :
      l.natAbs ≤ 100000000000000000000000000 := by
    have habs : 27 * l.natAbs = i.natAbs * parts := by
      have h' := congrArg Int.natAbs h
      rwa [Int.natAbs_mul, Int.natAbs_mul, Int.natAbs_natCast] at h'
    have hprod : i.natAbs * parts ≤ 10000000000000000000 * 270000000 :=
      Nat.mul_le_mul (Nat.le_of_lt hi) hle
    omega
  have hlt : (m + n).natAbs < limit := by
    have hmb := hbound hj hmj
    have hnb := hbound hk hnk
    rw [limit]
    omega
  obtain ⟨c, hc, hcd⟩ := hm.add (by decide) hn hlt
  refine ⟨c, hc, (lasts_iff hparts hpos).2 ⟨_, hcd, ?_⟩⟩
  rw [Int.mul_add, hmj, hnk, Int.add_mul]

end Decimal

/-! ## the span that is added -/

theorem millisecondsOf?_exact (hu : unit < Decimal.limit) {x : Decimal}
    (hx : x.Denotes (a.signed * unit) a.scale) :
    ∃ k, NearestEven (a.signed * unit) (10 ^ a.scale : Nat) k ∧
      millisecondsOf? unit a = Duration.ofNanos? (k * 1000000) := by
  have hunit : (Decimal.ofNat unit).signed = unit := Decimal.signed_ofInt (i := (unit : Int)) hu
  rw [← hunit] at hx ⊢
  obtain ⟨c, hc, hcd⟩ :=
    Decimal.mul_exact (b := .ofNat unit) (Nat.le_trans a.scale_le (by decide)) hx
  refine ⟨c.round, hcd.round, ?_⟩
  rw [millisecondsOf?, hc]
  rfl

theorem Duration.ofNanos?_eq_none {n : Int} (h : maxNanos < n.natAbs) : ofNanos? n = none :=
  dif_neg (Nat.not_le.2 h)

/-- more milliseconds than a number can count -/
theorem Decimal.Lasts.mul_eq_none (hu : unit < limit) (h : a.Lasts unit k)
    (hk : limit ≤ k.natAbs) : a.mul (.ofNat unit) = none := by
  have hunit : (ofNat unit).mantissa = unit := Nat.min_eq_left (Nat.le_sub_one_of_lt hu)
  have hprod : a.mantissa * (ofNat unit).mantissa = k.natAbs * 10 ^ a.scale := by
    have habs := congrArg Int.natAbs h
    rwa [Int.natAbs_mul, Int.natAbs_mul, natAbs_signed, Int.natAbs_natCast, Int.natAbs_pow,
      ← hunit] at habs
  refine Decimal.mul_eq_none (Nat.le_trans a.scale_le (by decide)) ?_
  rw [hprod]
  show limit ≤ k.natAbs * 10 ^ a.scale / 10 ^ a.scale
  rwa [Nat.mul_div_cancel _ (ten_pow_pos_nat _)]

/-- whole milliseconds are not rounded -/
theorem Decimal.Lasts.millisecondsOf? (hu : unit < limit) (h : a.Lasts unit k) :
    millisecondsOf? unit a = Duration.ofNanos? (k * 1000000) := by
  by_cases hk : k.natAbs < limit
  · have hx : (ofInt k).Denotes (a.signed * unit) a.scale := by
      rw [Denotes, signed_ofInt hk, h]
      exact (Int.mul_one _).symm
    obtain ⟨m, hm, he⟩ := millisecondsOf?_exact hu hx
    have hpow : a.signed * unit = k * (10 ^ a.scale : Nat) := by
      rw [h, Int.natCast_pow]
      rfl
    rw [hpow] at hm
    rw [he, hm.eq_of_whole (ten_pow_pos_nat _)]
  · have hlong : Duration.maxNanos < (k * 1000000).natAbs := by
      rw [limit] at hk
      rw [Duration.maxNanos]
      omega
    rw [ExprLang.millisecondsOf?, h.mul_eq_none hu (Nat.not_lt.1 hk),
      Duration.ofNanos?_eq_none hlong]
    rfl

namespace DateTime

variable {t u v : DateTime}

theorem natAbs_instant_lt (t : DateTime) : t.instant.natAbs < 8300000000000000000000 := by
  have := t.day_ge
  have := t.day_le
  have := t.second_lt
  have := t.nano_lt
  unfold instant
  omega

theorem addAmount?_eq_some_iff (ht : t.isLeapSecond = false) (hu : unit < Decimal.limit)
    (h : a.Lasts unit k) : t.addAmount? unit a = some u ↔
      u.isLeapSecond = false ∧ u.instant = t.instant + k * 1000000 := by
  rw [addAmount?, h.millisecondsOf? hu, Option.bind_eq_some_iff]
  constructor
  · rintro ⟨d, hd, hu⟩
    rw [← Duration.ofNanos?_eq_some.1 hd]
    exact (add?_eq_some_iff ht).1 hu
  · rintro ⟨hleap, hi⟩
    -- a span between two date-times is a duration
    have hspan : (k * 1000000).natAbs ≤ Duration.maxNanos := by
      have := t.natAbs_instant_lt
      have := u.natAbs_instant_lt
      rw [Duration.maxNanos]
      omega
    exact ⟨⟨k * 1000000, hspan⟩, dif_pos hspan, (add?_eq_some_iff ht).2 ⟨hleap, hi⟩⟩

/-- an amount that leads from a date-time to another one is of so few milliseconds -/
theorem natAbs_lt_of_addAmount? (ht : t.isLeapSecond = false) (hu : unit < Decimal.limit)
    (h : a.Lasts unit k) (hadd : t.addAmount? unit a = some u) :
    k.natAbs < 10000000000000000000 := by
  have hi := ((addAmount?_eq_some_iff ht hu h).1 hadd).2
  have := t.natAbs_instant_lt
  have := u.natAbs_instant_lt
  omega

/-- one amount after the other is their sum -/
theorem addAmount?_add (ht : t.isLeapSecond = false) (hu : (name, unit) ∈ amountMembers)
    (ha : a.Lasts unit j) (hb : b.Lasts unit k) (hv : t.addAmount? unit a = some v)
    (hw : v.addAmount? unit b = some u) :
    ∃ c, a.add b = some c ∧ t.addAmount? unit c = some u := by
  have hlt := unit_lt hu
  obtain ⟨hleap, hvi⟩ := (addAmount?_eq_some_iff ht hlt ha).1 hv
  obtain ⟨huleap, hui⟩ := (addAmount?_eq_some_iff hleap hlt hb).1 hw
  obtain ⟨c, hc, hcl⟩ := ha.add hu hb (natAbs_lt_of_addAmount? ht hlt ha hv)
    (natAbs_lt_of_addAmount? hleap hlt hb hw)
  exact ⟨c, hc, (addAmount?_eq_some_iff ht hlt hcl).2 ⟨huleap, by omega⟩⟩

theorem addAmount?_neg (ht : t.isLeapSecond = false) (hu : unit < Decimal.limit)
    (ha : a.Lasts unit k) (hv : t.addAmount? unit a = some v) :
    v.addAmount? unit a.neg = some t := by
  obtain ⟨hleap, hi⟩ := (addAmount?_eq_some_iff ht hu ha).1 hv
  exact (addAmount?_eq_some_iff hleap hu ha.neg).2 ⟨ht, by omega⟩

/-! ## the time of day -/

theorem midnight_nano_lt (t : DateTime) : t.midnight.nano < 1000000000 := by
  show 0 < 1000000000
  decide

def atSecond (t : DateTime) (s : Nat) (hs : s < 86400) : DateTime :=
  { t.midnight with second := s, second_lt := hs, leap := .inl t.midnight_nano_lt }

def wholeSecond (t : DateTime) : DateTime := t.atSecond t.second t.second_lt

theorem addAmount?_atSecond (t : DateTime) (seconds : Nat) {s s' n : Nat} (hs : s < 86400)
    (hs' : s' < 86400) (hu : seconds * 1000 < Decimal.limit) (hn : n < Decimal.limit)
    (h : s + n * seconds = s') :
    (t.atSecond s hs).addAmount? (seconds * 1000) (.ofNat n) = some (t.atSecond s' hs') := by
  have hl : (Decimal.ofNat n).Lasts (seconds * 1000) (n * (seconds * 1000 : Nat)) :=
    Decimal.lasts_of_denotes (Decimal.isCount_ofNat hn).denotes rfl
  refine (addAmount?_eq_some_iff (t := t.atSecond s hs) rfl hu hl).2 ⟨rfl, ?_⟩
  show (t.day * 86400 + s') * 1000000000 + 0 =
    (t.day * 86400 + s) * 1000000000 + 0 + n * (seconds * 1000 : Nat) * 1000000
  rw [← h, Int.natCast_mul seconds, ← Int.mul_assoc, Int.natCast_add, Int.natCast_mul]
  omega

/-- from midnight to the second by the hours, the minutes and the seconds of the clock -/
theorem addAmount?_clock (t : DateTime) :
    ∃ h m, t.midnight.addAmount? 3600000 (.ofNat t.hour) = some h ∧
      h.addAmount? 60000 (.ofNat t.minute) = some m ∧
      m.addAmount? 1000 (.ofNat t.secondOfMinute) = some t.wholeSecond := by
  have hparts (l : Nat) : l / 3600 * 3600 + l % 3600 / 60 * 60 + l % 60 * 1 = l := by omega
  have hclock : t.hour * 3600 + t.minute * 60 + t.secondOfMinute * 1 = t.second :=
    hparts t.second
  have hminute : t.hour * 3600 + t.minute * 60 < 86400 :=
    Nat.lt_of_le_of_lt (Nat.le.intro hclock) t.second_lt
  have hhour : t.hour * 3600 < 86400 := Nat.lt_of_le_of_lt (Nat.le_add_right ..) hminute
  have hlimit {n : Nat} (seconds : Nat) (hpos : 0 < seconds) (h : n * seconds < 86400) :
      n < Decimal.limit :=
    Nat.lt_of_le_of_lt (Nat.le_mul_of_pos_right n hpos) (Nat.lt_trans h (by decide))
  refine ⟨t.atSecond _ hhour, t.atSecond _ hminute, ?_, ?_, ?_⟩
  · exact t.addAmount?_atSecond 3600 (by decide) hhour (by decide) (hlimit 3600 (by decide) hhour)
      (Nat.zero_add _)
  · refine t.addAmount?_atSecond 60 hhour hminute (by decide) (hlimit 60 (by decide) ?_) rfl
    exact Nat.lt_of_le_of_lt (Nat.le_add_left ..) hminute
  · refine t.addAmount?_atSecond 1 hminute t.second_lt (by decide) (hlimit 1 (by decide) ?_) hclock
    exact Nat.lt_of_le_of_lt (hclock ▸ Nat.le_add_left ..) t.second_lt

end DateTime

/-! ## expressions -/

theorem callAmount_eq (hu : (name, unit) ∈ amountMembers) (t : DateTime) (a : Decimal) :
    (Value.dateTime t).callMethod? name [.number a] =
      some (match t.addAmount? unit a with
        | some later => .ok (.dateTime later)
        | none => .error (.sumOutOfRange a)) := by
  simp only [amountMembers, List.mem_cons, List.not_mem_nil, or_false, Prod.mk.injEq] at hu
  rcases hu with ⟨rfl, rfl⟩ | ⟨rfl, rfl⟩ | ⟨rfl, rfl⟩ | ⟨rfl, rfl⟩
  all_goals rfl

def Expr.clock (t : Expr) : Expr :=
  (((Expr.member t "Date").invoke "AddHours" [.member t "Hour"]).invoke
    "AddMinutes" [.member t "Minute"]).invoke "AddSeconds" [.member t "Second"]

namespace Evaluator

variable {ev : Evaluator} {c : Context} {e t p q : Expr} {dt u : DateTime}

def Moves (ev : Evaluator) (c : Context) (e : Expr) : Option DateTime → Prop
  | some u => ev.Gives c e (.ok (.dateTime u))
  | none => ∃ x, ev.Gives c e (.error x)

structure AddsAmounts (ev : Evaluator) (c : Context) (t : Expr) (dt : DateTime) : Prop where
  /-- whole days, as many hours, as many minutes and as many seconds -/
  units : ∀ {p₁ p₂ p₃ p₄ days hours minutes seconds} {k : Int},
    ev.Gives c p₁ (.ok (.number days)) → days.Denotes k 0 →
    ev.Gives c p₂ (.ok (.number hours)) → hours.Denotes (24 * k) 0 →
    ev.Gives c p₃ (.ok (.number minutes)) → minutes.Denotes (1440 * k) 0 →
    ev.Gives c p₄ (.ok (.number seconds)) → seconds.Denotes (86400 * k) 0 →
    ∃ o, ev.Moves c (t.invoke "AddDays" [p₁]) o ∧ ev.Moves c (t.invoke "AddHours" [p₂]) o ∧
      ev.Moves c (t.invoke "AddMinutes" [p₃]) o ∧ ev.Moves c (t.invoke "AddSeconds" [p₄]) o
  /-- `t.AddSeconds(p)` is `t + q` for the duration of so many seconds -/
  duration : ∀ {p q a d} {k : Int},
    ev.Gives c p (.ok (.number a)) → a.Denotes k 0 → ev.Gives c q (.ok (.duration d)) →
    d.nanos = k * 1000000000 →
    ∃ o, ev.Moves c (t.invoke "AddSeconds" [p]) o ∧ ev.Moves c (.binary t .add q) o
  /-- an exact product is rounded to whole milliseconds -/
  rounded : ∀ {name unit p a} {x : Decimal}, (name, unit) ∈ amountMembers →
    ev.Gives c p (.ok (.number a)) → x.Denotes (a.signed * unit) a.scale →
    ∃ k, NearestEven (a.signed * unit) (10 ^ a.scale : Nat) k ∧
      ev.Moves c (t.invoke name [p]) ((Duration.ofNanos? (k * 1000000)).bind dt.add?)
  /-- `t.AddX(p).AddX(q)` is `t.AddX(p + q)` -/
  sum : ∀ {name unit p q a b j k v}, dt.isLeapSecond = false → (name, unit) ∈ amountMembers →
    ev.Gives c p (.ok (.number a)) → a.Lasts unit j →
    ev.Gives c q (.ok (.number b)) → b.Lasts unit k →
    ev.Gives c ((t.invoke name [p]).invoke name [q]) (.ok v) →
      ev.Gives c (t.invoke name [.binary p .add q]) (.ok v)
  /-- `t.AddX(p).AddX(-p)` is `t` -/
  back : ∀ {name unit p a k v}, dt.isLeapSecond = false → (name, unit) ∈ amountMembers →
    ev.Gives c p (.ok (.number a)) → a.Lasts unit k → ev.Gives c (t.invoke name [p]) (.ok v) →
      ev.Gives c ((t.invoke name [p]).invoke name [.unary .negate p]) (.ok (.dateTime dt))
  clock : ev.Gives c t.clock (.ok (.dateTime dt.wholeSecond))

theorem moves_of_orOverflow {op : BinaryOp} {o : Option DateTime}
    (h : ev.Gives c e (BinaryOp.orOverflow op (o.map .dateTime))) : ev.Moves c e o := by
  cases o with
  | some u => exact h
  | none => exact ⟨_, h⟩

section
variable {functions : Functions} (hh : ev.host = .standard functions)
  (ht : ev.Gives c t (.ok (.dateTime dt))) (hp : ev.Gives c p (.ok (.number a)))
include hh ht hp

theorem moves_amount (hu : (name, unit) ∈ amountMembers) :
    ev.Moves c (t.invoke name [p]) (dt.addAmount? unit a) := by
  have h := gives_answer hh ht (comes_one hp) (callAmount_eq hu dt a)
  cases hadd : dt.addAmount? unit a with
  | some later =>
    rw [hadd] at h
    exact h
  | none =>
    rw [hadd] at h
    exact ⟨_, h⟩

theorem moves_whole (hu : (name, unit) ∈ amountMembers) (hl : a.Lasts unit k) :
    ev.Moves c (t.invoke name [p]) ((Duration.ofNanos? (k * 1000000)).bind dt.add?) := by
  rw [← hl.millisecondsOf? (unit_lt hu)]
  exact moves_amount hh ht hp hu

end

theorem Moves.gives_iff {o : Option DateTime} (h : ev.Moves c e o) {v : Value} :
    ev.Gives c e (.ok v) ↔ ∃ u, o = some u ∧ .dateTime u = v := by
  cases o with
  | some u =>
    refine (Evaluator.gives_iff h).trans ⟨fun hv => ?_, ?_⟩
    · cases hv
      exact ⟨u, rfl, rfl⟩
    · rintro ⟨w, hw, rfl⟩
      cases hw
      rfl
  | none =>
    obtain ⟨x, hx⟩ := h
    refine iff_of_false (fun hv => ?_) ?_
    · cases (Evaluator.gives_iff hx).1 hv
    · rintro ⟨_, h, -⟩
      cases h

section
variable {functions : Functions} (hh : ev.host = .standard functions)
  (ht : ev.Gives c t (.ok (.dateTime dt)))
  (hdt : dt.isLeapSecond = false) (hu : (name, unit) ∈ amountMembers)
  (hp : ev.Gives c p (.ok (.number a))) (ha : a.Lasts unit j)
include hh ht hdt hu hp ha

theorem gives_sum (hq : ev.Gives c q (.ok (.number b))) (hb : b.Lasts unit k) {v : Value}
    (h : ev.Gives c ((t.invoke name [p]).invoke name [q]) (.ok v)) :
    ev.Gives c (t.invoke name [.binary p .add q]) (.ok v) := by
  have hfirst := moves_amount hh ht hp hu
  cases hadd : dt.addAmount? unit a with
  | none =>
    rw [hadd] at hfirst
    obtain ⟨x, hx⟩ := hfirst
    have herror : ev.Gives c ((t.invoke name [p]).invoke name [q]) (.error x) :=
      gives_invoke hh hx (comes_one hq) name
    cases (Evaluator.gives_iff herror).1 h
  | some w =>
    rw [hadd] at hfirst
    obtain ⟨u, hsum, rfl⟩ := (moves_amount hh hfirst hq hu).gives_iff.1 h
    obtain ⟨d, hd, hone⟩ := DateTime.addAmount?_add hdt hu ha hb hadd hsum
    exact (moves_amount hh ht (gives_plus hp hq hd) hu).gives_iff.2 ⟨u, hone, rfl⟩

theorem gives_back {v : Value} (h : ev.Gives c (t.invoke name [p]) (.ok v)) :
    ev.Gives c ((t.invoke name [p]).invoke name [.unary .negate p]) (.ok (.dateTime dt)) := by
  obtain ⟨u, hadd, rfl⟩ := (moves_amount hh ht hp hu).gives_iff.1 h
  have hneg : ev.Gives c (.unary .negate p) (.ok (.number a.neg)) := gives_unary hp .negate
  exact (moves_amount hh h hneg hu).gives_iff.2
    ⟨dt, DateTime.addAmount?_neg hdt (unit_lt hu) ha hadd, rfl⟩

end

section
variable {functions : Functions} (hh : ev.host = .standard functions)
  (ht : ev.Gives c t (.ok (.dateTime dt)))
include hh ht

theorem gives_clock : ev.Gives c t.clock (.ok (.dateTime dt.wholeSecond)) := by
  have hday : ev.Gives c (.member t "Date") (.ok (.dateTime dt.midnight)) :=
    gives_reading hh ht "Date"
  have hhour : ev.Gives c (.member t "Hour") (.ok (.count dt.hour)) := gives_reading hh ht "Hour"
  have hminute : ev.Gives c (.member t "Minute") (.ok (.count dt.minute)) :=
    gives_reading hh ht "Minute"
  have hsecond : ev.Gives c (.member t "Second") (.ok (.count dt.secondOfMinute)) :=
    gives_reading hh ht "Second"
  obtain ⟨h, m, hh', hm, hs⟩ := dt.addAmount?_clock
  have h1 := moves_amount hh hday hhour hours_mem
  rw [hh'] at h1
  have h2 := moves_amount hh h1 hminute minutes_mem
  rw [hm] at h2
  have h3 := moves_amount hh h2 hsecond seconds_mem
  rwa [hs] at h3

end

/-- the members that add an amount are one operation in different units, on one line of instants -/
theorem adds_amounts {ev : Evaluator} {functions : Functions} (hh : ev.host = .standard functions)
    (c : Context) {t : Expr} {dt : DateTime} (ht : ev.Gives c t (.ok (.dateTime dt))) :
    ev.AddsAmounts c t dt where
  units h₁ hd h₂ hhours h₃ hm h₄ hs := by
    refine ⟨_, moves_whole hh ht h₁ days_mem (Decimal.lasts_of_denotes hd rfl),
      moves_whole hh ht h₂ hours_mem (Decimal.lasts_of_denotes hhours ?_),
      moves_whole hh ht h₃ minutes_mem (Decimal.lasts_of_denotes hm ?_),
      moves_whole hh ht h₄ seconds_mem (Decimal.lasts_of_denotes hs ?_)⟩
    all_goals omega
  duration {p q a d k} hp ha hq hd := by
    have hadd : ev.Gives c (.binary t .add q)
        (BinaryOp.orOverflow .add ((dt.add? d).map .dateTime)) :=
      gives_binary ht hq (by decide) (by decide)
    have hspan : Duration.ofNanos? (k * (1000 : Nat) * 1000000) = some d :=
      Duration.ofNanos?_eq_some.2 (by omega)
    have hseconds := moves_whole hh ht hp seconds_mem (Decimal.lasts_of_denotes ha rfl)
    rw [hspan] at hseconds
    exact ⟨_, hseconds, moves_of_orOverflow hadd⟩
  rounded hu hp hx := by
    obtain ⟨k, hk, hspan⟩ := millisecondsOf?_exact (unit_lt hu) hx
    refine ⟨k, hk, ?_⟩
    rw [← hspan]
    exact moves_amount hh ht hp hu
  sum hdt hu hp ha hq hb h := gives_sum hh ht hdt hu hp ha hq hb h
  back hdt hu hp ha h := gives_back hh ht hdt hu hp ha h
  clock := gives_clock hh ht

/-- a day by its hours, with places, and half a day there and back, over midnight -/
theorem adds_amounts_midnight :
    let ev : Evaluator := ⟨{}, .standard fun _ => none⟩
    let dt : DateTime := { day := 0, second := 86399, nano := 500000000 }
    let half : Decimal := { negative := false, mantissa := 5, scale := 1 }
    let hours : Decimal := { negative := false, mantissa := 2400, scale := 2 }
    let t : Expr := .constant (.dateTime dt)
    let p : Expr := .constant (.number half)
    dt.isLeapSecond = false ∧ half.Lasts 86400000 43200000 ∧
      (∃ o, ev.Moves .empty (t.invoke "AddDays" [.constant (.number .one)]) o ∧
        ev.Moves .empty (t.invoke "AddHours" [.constant (.number hours)]) o) ∧
      ev.Gives .empty ((t.invoke "AddDays" [p]).invoke "AddDays" [.unary .negate p])
        (.ok (.dateTime dt)) := by
  intro ev dt half hours t p
  have hh : ev.host = .standard fun _ => none := rfl
  have ht : ev.Gives .empty t (.ok (.dateTime dt)) := gives_constant _
  have hp : ev.Gives .empty p (.ok (.number half)) := gives_constant _
  have hleap : dt.isLeapSecond = false := by decide
  have hl : half.Lasts 86400000 43200000 := by
    unfold Decimal.Lasts
    decide
  let later : DateTime := { day := 1, second := 43199, nano := 500000000 }
  have hadd : dt.addAmount? 86400000 half = some later :=
    (DateTime.addAmount?_eq_some_iff hleap (unit_lt days_mem) hl).2 ⟨by decide, by decide⟩
  have hlater : ev.Gives .empty (t.invoke "AddDays" [p]) (.ok (.dateTime later)) :=
    (moves_amount hh ht hp days_mem).gives_iff.2 ⟨later, hadd, rfl⟩
  have h := adds_amounts hh .empty ht
  obtain ⟨o, hdays, hhours, -⟩ := h.units (gives_constant (.number .one))
    (by decide : Decimal.one.Denotes 1 0) (gives_constant (.number hours)) (by decide)
    (gives_constant (.number (.ofNat 1440))) (by decide)
    (gives_constant (.number (.ofNat 86400))) (by decide)
  exact ⟨hleap, hl, ⟨o, hdays, hhours⟩, h.back hleap days_mem hp hl hlater⟩

end Evaluator

end ExprLang
