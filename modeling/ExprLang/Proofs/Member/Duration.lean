import ExprLang.Member.Builtin
import ExprLang.Proofs.Decimal.Exact
import ExprLang.Proofs.Time.DurationText

/-!
# The members of a duration

* `Duration.Components`      days, and the hours, minutes and seconds beyond the next larger unit;
* `Duration.components d`    those of a duration;
* `Duration.fraction d`      the nanoseconds beyond the whole seconds, as a number of seconds.

Without their signs the components are the fields that the text shows (`shown_components`), and each
has the sign of the duration (`components_sign`), so their ranges and their sum are those of the
fields.  The totals are the exact length: its mantissa is so small that nothing is rounded.
-/

namespace ExprLang.Duration

theorem eq_sign_mul {i s : Int} (h : i = 0 ∨ i.sign = s) : i = s * i.natAbs := by
  rcases h with h | h
  · rw [h]
    exact (Int.mul_zero s).symm
  · rw [← h, Int.sign_mul_natAbs]

structure Components where
  days : Int
  hours : Int
  minutes : Int
  seconds : Int

namespace Components

def toList (c : Components) : List Int := [c.days, c.hours, c.minutes, c.seconds]

/-- all components together, in seconds -/
def inSeconds (c : Components) : Int :=
  86400 * c.days + 3600 * c.hours + 60 * c.minutes + c.seconds

/-- the fields of a text that shows the components without their signs, and so many ticks -/
def shown (c : Components) (ticks : Nat) : Fields :=
  ⟨c.days.natAbs, c.hours.natAbs, c.minutes.natAbs, c.seconds.natAbs, ticks⟩

theorem inSeconds_of_signs {c : Components} {s : Int} (h : ∀ i ∈ c.toList, i = 0 ∨ i.sign = s)
    (ticks : Nat) : c.inSeconds = s * (c.shown ticks).wholeSeconds := by
  have hi {i : Int} (hi : i ∈ c.toList) : i = s * i.natAbs := eq_sign_mul (h i hi)
  have hd := hi (i := c.days) (by simp [toList])
  have hh := hi (i := c.hours) (by simp [toList])
  have hm := hi (i := c.minutes) (by simp [toList])
  have hs := hi (i := c.seconds) (by simp [toList])
  rw [inSeconds, shown, Fields.wholeSeconds]
  simp only [Int.natCast_add, Int.natCast_mul]
  grind

end Components

def components (d : Duration) : Components where
  days := d.whole (86400 * 1000000000)
  hours := (d.whole (3600 * 1000000000)).tmod 24
  minutes := (d.whole (60 * 1000000000)).tmod 60
  seconds := d.seconds.tmod 60

theorem natAbs_whole (d : Duration) (unit : Nat) :
    (d.whole unit).natAbs = d.nanos.natAbs / unit := Int.natAbs_tdiv ..

theorem natAbs_seconds (d : Duration) : d.seconds.natAbs = d.nanos.natAbs / 1000000000 :=
  d.natAbs_whole 1000000000

theorem shown_components (d : Duration) :
    d.components.shown (d.subsecond.natAbs / 100) = Fields.split d.nanos.natAbs := by
  have hrest (i : Int) (m : Nat) : (i.tmod m).natAbs = i.natAbs % m := Int.natAbs_tmod ..
  have hh := (hrest _ 24).trans (congrArg (· % 24) (d.natAbs_whole 3600000000000))
  have hm := (hrest _ 60).trans (congrArg (· % 60) (d.natAbs_whole 60000000000))
  have hs := (hrest _ 60).trans (congrArg (· % 60) (d.natAbs_whole 1000000000))
  rw [Components.shown, Fields.split, Fields.mk.injEq]
  exact ⟨(d.natAbs_whole 86400000000000).trans (by omega), hh.trans (by omega),
    hm.trans (by omega), hs.trans (by omega), congrArg (· / 100) (hrest d.nanos 1000000000)⟩

theorem whole_sign (d : Duration) {unit : Int} (h : 0 < unit) :
    d.whole unit = 0 ∨ (d.whole unit).sign = d.nanos.sign := by
  rw [whole, ← Int.sign_eq_zero_iff_zero, Int.sign_tdiv, Int.sign_eq_one_of_pos h, Int.mul_one]
  split
  · exact .inl rfl
  · exact .inr rfl

theorem components_sign (d : Duration) :
    ∀ i ∈ d.components.toList, i = 0 ∨ i.sign = d.nanos.sign := by
  have hrest {i : Int} (m : Int) (h : i = 0 ∨ i.sign = d.nanos.sign) :
      i.tmod m = 0 ∨ (i.tmod m).sign = d.nanos.sign := by
    rw [← Int.sign_eq_zero_iff_zero, Int.sign_tmod]
    split
    · exact .inl rfl
    · exact h.imp_left Int.sign_eq_zero_iff_zero.2
  simp only [Components.toList, List.forall_mem_cons]
  exact ⟨d.whole_sign (by decide), hrest 24 (d.whole_sign (by decide)),
    hrest 60 (d.whole_sign (by decide)), hrest 60 (d.whole_sign (by decide)),
    List.forall_mem_nil _⟩

example : ({ nanos := -90061000000001 } : Duration).components.toList = [-1, -1, -1, -1] := by
  decide

theorem inSeconds_components (d : Duration) : d.components.inSeconds = d.seconds := by
  rw [Components.inSeconds_of_signs d.components_sign (d.subsecond.natAbs / 100), shown_components,
    Fields.wholeSeconds_split, ← natAbs_seconds]
  have hsign : d.seconds = 0 ∨ d.seconds.sign = d.nanos.sign := d.whole_sign (by decide)
  exact (eq_sign_mul hsign).symm

/-! ## totals -/

theorem natAbs_subsecond_lt (d : Duration) : d.subsecond.natAbs < Decimal.limit := by
  have := d.subsecond_bounds
  unfold Decimal.limit
  omega

/-- a decimal has room for the nine places of a nanosecond -/
theorem nine_places_le : 9 ≤ 28 := by decide

def fraction (d : Duration) : Decimal :=
  ⟨d.subsecond < 0, d.subsecond.natAbs, 9, d.natAbs_subsecond_lt, nine_places_le⟩

theorem natAbs_seconds_lt (d : Duration) : d.seconds.natAbs < 9223372036854776 := by
  have := d.natAbs_seconds
  have := d.bound
  omega

theorem signed_ofInt_seconds (d : Duration) : (Decimal.ofInt d.seconds).signed = d.seconds :=
  Decimal.signed_ofInt (Nat.lt_trans d.natAbs_seconds_lt (by decide))

theorem seconds_add_fraction (d : Duration) :
    ∃ sum, (Decimal.ofInt d.seconds).add d.fraction = some sum ∧ sum.Denotes d.nanos 9 := by
  refine Decimal.add_denotes rfl ?_ d.natAbs_nanos_lt
  rw [Decimal.alignedTo, Decimal.signedAt, signed_ofInt_seconds]
  show d.seconds * 1000000000 + d.fraction.signed * 1 = d.nanos
  rw [Int.mul_one]
  exact (congrArg (_ + ·) (Decimal.signed_natAbs _)).trans d.seconds_add_subsecond

theorem exactSeconds_denotes (d : Duration) : d.exactSeconds.Denotes d.nanos 9 := by
  unfold exactSeconds
  split
  · next h =>
    have hsum := d.seconds_add_subsecond
    rw [Decimal.Denotes, signed_ofInt_seconds]
    show d.seconds * 1000000000 = d.nanos * 1
    omega
  · exact congrArg (· * 10 ^ 9) (Decimal.signed_natAbs d.nanos)

theorem totalSeconds_denotes (d : Duration) :
    ∃ total, d.total? 1 = some total ∧ total.Denotes d.nanos 9 := by
  obtain ⟨q, hq, hd⟩ := d.exactSeconds.div_one_denotes
  refine ⟨q.normalize, ?_, (q.normalize_denotes.trans hd).trans d.exactSeconds_denotes⟩
  rw [total?, hq]
  rfl

theorem exactSeconds_le (d : Duration) :
    d.exactSeconds.mantissa ≤ maxNanos ∧ d.exactSeconds.scale ≤ 9 := by
  unfold exactSeconds
  split
  · have hle : min d.seconds.natAbs (Decimal.limit - 1) ≤ maxNanos :=
      Nat.le_trans (Nat.min_le_left ..)
        (Nat.le_trans (Nat.le_of_lt d.natAbs_seconds_lt) (by decide))
    exact ⟨hle, Nat.zero_le 9⟩
  · exact ⟨d.bound, Nat.le_refl 9⟩

theorem totalMilliseconds_denotes (d : Duration) :
    ∃ millis, d.totalMilliseconds? = some millis ∧ millis.Denotes (1000 * d.nanos) 9 := by
  obtain ⟨hm, hs⟩ := d.exactSeconds_le
  obtain ⟨p, hp, hd⟩ := Decimal.mul_denotes (a := d.exactSeconds) (b := .ofNat 1000)
    (Nat.le_trans hs (by decide)) (Nat.lt_of_le_of_lt (Nat.mul_le_mul_right 1000 hm) (by decide))
  have hd : p.Denotes (1000 * d.exactSeconds.signed) d.exactSeconds.scale := by
    rw [Int.mul_comm]
    exact hd
  refine ⟨p.normalize, ?_, p.normalize_denotes.trans
    (Decimal.fraction_trans hd (d.exactSeconds_denotes.mul_left 1000))⟩
  rw [totalMilliseconds?, hp]
  rfl

/-- the components, the totals and the text of a duration fit together without loss -/
theorem members_decompose (d : Duration) :
    ∃ (c : Components) (sum total millis : Decimal),
      ((Value.duration d).property? "Days" = some (.int c.days) ∧
        (Value.duration d).property? "Hours" = some (.int c.hours) ∧
        (Value.duration d).property? "Minutes" = some (.int c.minutes) ∧
        (Value.duration d).property? "Seconds" = some (.int c.seconds) ∧
        (Value.duration d).property? "TotalSeconds" = some (.number total) ∧
        (Value.duration d).property? "TotalMilliseconds" = some (.number millis)) ∧
      (c.days.natAbs ≤ 106751991167 ∧ c.hours.natAbs ≤ 23 ∧ c.minutes.natAbs ≤ 59 ∧
        c.seconds.natAbs ≤ 59) ∧
      (∀ i ∈ [c.days, c.hours, c.minutes, c.seconds], i = 0 ∨ i.sign = d.nanos.sign) ∧
      86400 * c.days + 3600 * c.hours + 60 * c.minutes + c.seconds =
        total.signed.tdiv (10 ^ total.scale) ∧
      ((Decimal.ofInt d.seconds).add d.fraction = some sum ∧ sum.Denotes d.nanos 9 ∧
        total.Denotes d.nanos 9 ∧ millis.Denotes (1000 * total.signed) total.scale) ∧
      (Value.duration d).callMethod? "ToString" [] = some (.ok (.text d.toText)) ∧
      d.toChars = (if d.nanos < 0 then ['-'] else []) ++
        (c.shown (d.subsecond.natAbs / 100)).toChars := by
  obtain ⟨sum, hadd, hsum⟩ := d.seconds_add_fraction
  obtain ⟨total, htotal, ht⟩ := d.totalSeconds_denotes
  obtain ⟨millis, hmillis, hm⟩ := d.totalMilliseconds_denotes
  have hshown := d.shown_components
  have hfields := Fields.shown_split d.nanos.natAbs
  rw [← hshown] at hfields
  have hdays := d.natAbs_whole 86400000000000
  have hbound := d.bound
  refine ⟨d.components, sum, total, millis, ⟨rfl, rfl, rfl, rfl, ?_, ?_⟩,
    ⟨?_, Nat.le_of_lt_succ hfields.hours_lt, Nat.le_of_lt_succ hfields.minutes_lt,
      Nat.le_of_lt_succ hfields.seconds_lt⟩, d.components_sign, ?_,
    ⟨hadd, hsum, ht, Decimal.fraction_trans hm (ht.mul_left 1000).symm⟩, rfl, ?_⟩
  · exact congrArg (fun t => some ((t.map Value.number).getD .null)) htotal
  · exact congrArg (fun t => some ((t.map Value.number).getD .null)) hmillis
  · exact Nat.le_trans (Nat.le_of_eq hdays) (by omega)
  · exact d.inSeconds_components.trans ht.tdiv_eq.symm
  · rw [hshown]
    exact d.toChars_eq

end ExprLang.Duration
