import ExprLang.Proofs.Time.Written
import ExprLang.Value.Convert

/-!
# Durations are read as they are written

* `Duration.Fields.toChars f`   the fields in the written form, days and ticks only if there are any;
* `Duration.Fields.Shown f`     the fields are those that a written duration can have;
* `Duration.Fields.split n`     the fields of so many nanoseconds, less than a tick left out.

A duration is written as its sign and the fields of its length (`toChars_eq`).  Written fields are
read back (`fields?_toChars`), so reading gives the length without what is below a tick
(`unsigned?_split`).  What is read at all is made of whole ticks (`dvd_nanos_of_ofText?`), so written
again it is read as the same duration.
-/

namespace ExprLang.Duration

open Text

namespace Fields

def toChars (f : Fields) : List Char :=
  (if f.days = 0 then [] else digits f.days ++ ['.']) ++
  zeroPadded 2 f.hours ++ [':'] ++ zeroPadded 2 f.minutes ++ [':'] ++ zeroPadded 2 f.seconds ++
  (if f.ticks = 0 then [] else '.' :: zeroPadded 7 f.ticks)

structure Shown (f : Fields) : Prop where
  hours_lt : f.hours < 24
  minutes_lt : f.minutes < 60
  seconds_lt : f.seconds < 60
  ticks_lt : f.ticks < 10000000

/-- all fields but the ticks, in seconds -/
def wholeSeconds (f : Fields) : Nat := f.days * 86400 + f.hours * 3600 + f.minutes * 60 + f.seconds

def split (n : Nat) : Fields :=
  let s := n / 1000000000
  ⟨s / 86400, s % 86400 / 3600, s % 3600 / 60, s % 60, n % 1000000000 / 100⟩

theorem shown_split (n : Nat) : (split n).Shown where
  hours_lt := by
    show n / 1000000000 % 86400 / 3600 < 24
    omega
  minutes_lt := by
    show n / 1000000000 % 3600 / 60 < 60
    omega
  seconds_lt := Nat.mod_lt _ (by decide)
  ticks_lt := by
    show n % 1000000000 / 100 < 10000000
    omega

theorem wholeSeconds_split (n : Nat) : (split n).wholeSeconds = n / 1000000000 := by
  show n / 1000000000 / 86400 * 86400 + n / 1000000000 % 86400 / 3600 * 3600 +
    n / 1000000000 % 3600 / 60 * 60 + n / 1000000000 % 60 = n / 1000000000
  omega

theorem nanos?_of_shown {f : Fields} (h : f.Shown) :
    f.nanos? = some (f.wholeSeconds * 1000000000 + f.ticks * 100) :=
  if_pos ⟨Nat.le_of_lt_succ h.hours_lt, Nat.le_of_lt_succ h.minutes_lt,
    Nat.le_of_lt_succ h.seconds_lt⟩

theorem nanos?_split (n : Nat) : (split n).nanos? = some (n / 100 * 100) := by
  rw [nanos?_of_shown (shown_split n), wholeSeconds_split]
  show some (n / 1000000000 * 1000000000 + n % 1000000000 / 100 * 100) = _
  congr 1
  omega

end Fields

theorem toChars_eq (d : Duration) :
    d.toChars = (if d.nanos < 0 then ['-'] else []) ++ (Fields.split d.nanos.natAbs).toChars := by
  rw [toChars, Fields.toChars]
  simp only [List.append_assoc]
  rfl

/-! ## fields are read back -/

theorem twoDigits?_zeroPadded {n : Nat} (h : n < 100) (rest : List Char) :
    twoDigits? (zeroPadded 2 n ++ rest) = some (n, rest) := by
  have hc : ((digitChar (n / 10)).isDigit && (digitChar (n % 10)).isDigit) = true := by
    rw [isDigit_digitChar (by omega), isDigit_digitChar (by omega)]
    rfl
  have hn := ofDigits_zeroPadded 2 n
  rw [zeroPadded_two h] at hn ⊢
  show (if (digitChar (n / 10)).isDigit && (digitChar (n % 10)).isDigit then _ else _) = _
  rw [if_pos hc, hn]
  rfl

theorem ticks?_zeroPadded {t : Nat} (h : t < 10000000) : ticks? (zeroPadded 7 t) = some t := by
  have hl := length_zeroPadded (w := 6) h
  have hd : (zeroPadded 7 t).all Char.isDigit = true :=
    List.all_eq_true.2 fun _ => isDigit_of_mem_zeroPadded
  rw [ticks?, hl, hd, ofDigits_zeroPadded]
  exact congrArg some (Nat.mul_one t)

theorem secondsAndTicks?_written {s t : Nat} (hs : s < 100) (ht : t < 10000000) :
    secondsAndTicks? (':' :: (zeroPadded 2 s ++ if t = 0 then [] else '.' :: zeroPadded 7 t)) =
      some (s, t) := by
  rw [secondsAndTicks?, twoDigits?_zeroPadded hs]
  by_cases h0 : t = 0
  · rw [if_pos h0, h0]
  · rw [if_neg h0]
    show (ticks? (zeroPadded 7 t)).map (s, ·) = _
    rw [ticks?_zeroPadded ht]
    rfl

variable {f : Fields}

theorem clock?_written (h : f.Shown) :
    clock? f.days (zeroPadded 2 f.hours) (':' :: (zeroPadded 2 f.minutes ++
      ':' :: (zeroPadded 2 f.seconds ++ if f.ticks = 0 then [] else '.' :: zeroPadded 7 f.ticks))) =
      some f := by
  obtain ⟨hh, hm, hs, ht⟩ := h
  have hl := length_zeroPadded (w := 1) (n := f.hours) (by omega)
  show (if 1 ≤ (zeroPadded 2 f.hours).length && (zeroPadded 2 f.hours).length ≤ 2 then
    (twoDigits? _).bind _ else none) = _
  rw [hl, if_pos (by decide), twoDigits?_zeroPadded (by omega), Option.bind_some]
  show (secondsAndTicks? _).map _ = _
  rw [secondsAndTicks?_written (by omega) ht, ofDigits_zeroPadded]
  rfl

theorem fields?_toChars (h : f.Shown) : fields? f.toChars = some f := by
  have hclock := clock?_written h
  generalize hrest : (zeroPadded 2 f.minutes ++
    ':' :: (zeroPadded 2 f.seconds ++ if f.ticks = 0 then [] else '.' :: zeroPadded 7 f.ticks)) =
    rest at hclock
  have hchars : f.toChars = (if f.days = 0 then [] else digits f.days ++ ['.']) ++
      (zeroPadded 2 f.hours ++ ':' :: rest) := by
    rw [← hrest, Fields.toChars]
    simp only [List.append_assoc, List.cons_append, List.nil_append]
  have hdigits : ∀ d ∈ zeroPadded 2 f.hours, d.isDigit = true :=
    fun _ => isDigit_of_mem_zeroPadded
  obtain ⟨hhours, hbehind⟩ := takeWhile_isDigit hdigits (':' :: rest) (by
    intro c hc
    cases hc
    rfl)
  rw [hchars, fields?]
  by_cases h0 : f.days = 0
  · rw [if_pos h0, List.nil_append, hhours, hbehind, ← h0]
    exact hclock
  · have hd : ∀ d ∈ digits f.days, d.isDigit = true := fun _ => isDigit_of_mem_digits
    have he : (digits f.days).isEmpty = false := List.isEmpty_eq_false_iff.2 (digits_ne_nil _)
    rw [if_neg h0, List.append_assoc, List.singleton_append, takeWhile_digits_point hd,
      dropWhile_digits_point hd]
    show (if (digits f.days).isEmpty then none else
      clock? (ofDigits (digits f.days)) _ _) = _
    rw [he, if_neg Bool.false_ne_true, hhours, hbehind, ofDigits_digits]
    exact hclock

/-! ## durations -/

theorem toChars_eq_cons (f : Fields) : ∃ c cs, f.toChars = c :: cs ∧ c.isDigit = true := by
  rw [Fields.toChars]
  split
  · obtain ⟨c, cs, hc, hd⟩ := zeroPadded_eq_cons 2 f.hours
    rw [hc]
    exact ⟨c, _, rfl, hd⟩
  · obtain ⟨c, cs, hc⟩ := List.exists_cons_of_ne_nil (digits_ne_nil f.days)
    have hd : c.isDigit = true := isDigit_of_mem_digits (hc ▸ List.mem_cons_self)
    rw [hc]
    exact ⟨c, _, rfl, hd⟩

theorem not_blank_of_mem_toChars (f : Fields) : ∀ c ∈ f.toChars, isBlank c = false := by
  have padded (w n : Nat) : ∀ c ∈ zeroPadded w n, isBlank c = false := fun _ hc =>
    isDigit_not_blank (isDigit_of_mem_zeroPadded hc)
  have colon : ∀ c ∈ [':'], isBlank c = false := List.forall_mem_singleton.2 (by decide)
  simp only [Fields.toChars, List.forall_mem_append]
  refine ⟨⟨⟨⟨⟨⟨?_, padded _ _⟩, colon⟩, padded _ _⟩, colon⟩, padded _ _⟩, ?_⟩
  · split
    · exact List.forall_mem_nil _
    · exact List.forall_mem_append.2 ⟨fun c hc => isDigit_not_blank (isDigit_of_mem_digits hc),
        List.forall_mem_singleton.2 (by decide)⟩
  · split
    · exact List.forall_mem_nil _
    · exact List.forall_mem_cons.2 ⟨by decide, padded _ _⟩

theorem trimChars_toChars (d : Duration) : trimChars d.toChars = d.toChars := by
  have h : ∀ c ∈ d.toChars, isBlank c = false := by
    rw [toChars_eq, List.forall_mem_append]
    refine ⟨?_, not_blank_of_mem_toChars _⟩
    split
    · exact List.forall_mem_singleton.2 (by decide)
    · exact List.forall_mem_nil _
  exact trimChars_of_ends (fun c hc => h c (List.mem_of_head? hc))
    fun c hc => h c (List.mem_of_getLast? hc)

theorem unsigned?_split (n : Nat) :
    unsigned? (Fields.split n).toChars = ofNanos? (n / 100 * 100 : Nat) := by
  rw [unsigned?, fields?_toChars (Fields.shown_split n), Option.bind_some, Fields.nanos?_split,
    Option.bind_some]

/-- the text of a length behind a minus sign, or behind nothing, is read as that length -/
theorem ofText?_signed (negative : Bool) (f : Fields) {cs : List Char}
    (hcs : trimChars cs = (if negative then ['-'] else []) ++ f.toChars) :
    ofText? (String.ofList cs) =
      if negative then (unsigned? f.toChars).map neg else unsigned? f.toChars := by
  rw [ofText?, String.toList_ofList, hcs]
  cases negative with
  | true => rfl
  | false =>
    obtain ⟨c, rest, hc, hd⟩ := toChars_eq_cons f
    rw [if_neg Bool.false_ne_true, List.nil_append, if_neg Bool.false_ne_true, hc]
    -- a digit is no sign
    split
    · next he =>
      cases he
      cases hd
    · rfl

theorem ofText?_toText (d : Duration) :
    ∃ e, ofText? d.toText = some e ∧ e.nanos = d.nanos.tdiv 100 * 100 := by
  let n := d.nanos.natAbs
  have hle : ((n / 100 * 100 : Nat) : Int).natAbs ≤ maxNanos :=
    Nat.le_trans (Nat.div_mul_le_self n 100) d.bound
  have hread : unsigned? (Fields.split n).toChars = some ⟨(n / 100 * 100 : Nat), hle⟩ := by
    rw [unsigned?_split, ofNanos?, dif_pos hle]
  have hchars : trimChars d.toChars = (if decide (d.nanos < 0) = true then ['-'] else []) ++
      (Fields.split n).toChars := by
    rw [trimChars_toChars, toChars_eq]
    simp only [decide_eq_true_eq]
    rfl
  rw [toText, ofText?_signed _ _ hchars, hread]
  by_cases hneg : d.nanos < 0
  · refine ⟨_, if_pos (decide_eq_true hneg), ?_⟩
    have hd : d.nanos = -(n : Int) := by omega
    show -((n / 100 * 100 : Nat) : Int) = d.nanos.tdiv 100 * 100
    rw [hd, Int.neg_tdiv, Int.neg_mul, Int.natCast_mul, Int.ofNat_tdiv]
    rfl
  · refine ⟨_, if_neg (by rwa [decide_eq_true_eq]), ?_⟩
    have hd : d.nanos = n := by omega
    show ((n / 100 * 100 : Nat) : Int) = d.nanos.tdiv 100 * 100
    rw [hd, Int.natCast_mul, Int.ofNat_tdiv]
    rfl

theorem ofText?_toText_of_dvd {d : Duration} (h : 100 ∣ d.nanos) :
    ofText? d.toText = some d := by
  obtain ⟨e, he, hn⟩ := ofText?_toText d
  rw [he, eq_of_nanos (hn.trans (Int.tdiv_mul_cancel h))]

/-! ## what is read is made of ticks -/

theorem dvd_of_nanos? {f : Fields} {n : Nat} (h : f.nanos? = some n) : 100 ∣ n := by
  unfold Fields.nanos? at h
  split at h
  · cases h
    omega
  · cases h

theorem dvd_of_unsigned? {cs : List Char} {d : Duration} (h : unsigned? cs = some d) :
    100 ∣ d.nanos := by
  obtain ⟨f, -, hf⟩ := Option.bind_eq_some_iff.1 h
  obtain ⟨n, hn, hd⟩ := Option.bind_eq_some_iff.1 hf
  rw [ofNanos?_eq_some.1 hd]
  exact Int.natCast_dvd_natCast.2 (dvd_of_nanos? hn)

theorem dvd_nanos_of_ofText? {s : String} {d : Duration} (h : ofText? s = some d) :
    100 ∣ d.nanos := by
  unfold ofText? at h
  split at h
  · obtain ⟨e, he, rfl⟩ := Option.map_eq_some_iff.1 h
    exact Int.dvd_neg.2 (dvd_of_unsigned? he)
  · exact dvd_of_unsigned? h

theorem convertTo_text (f : NumberFormat) (d : Duration) :
    (Value.duration d).convertTo f .text = some (.text d.toText) := rfl

theorem convertTo_duration (f : NumberFormat) (s : String) :
    (Value.text s).convertTo f .duration = (ofText? s).map .duration := rfl

/-- a written duration is read as its whole ticks, and all numbers met on the way are in range -/
theorem toText_truncates (f : NumberFormat) :
    (∀ d : Duration, ∃ (g : Fields) (e : Duration),
      (d.toChars = (if d.nanos < 0 then ['-'] else []) ++ g.toChars ∧ fields? g.toChars = some g ∧
        g.wholeSeconds ≤ 9223372036854775 ∧ g.ticks * 100 < 1000000000) ∧
      ofText? d.toText = some e ∧ e.nanos = d.nanos.tdiv 100 * 100) ∧
    (∀ d e : Duration, 100 ∣ d.nanos → 100 ∣ e.nanos → d ≠ e → d.toText ≠ e.toText) ∧
    (∀ d : Duration, 100 ∣ d.nanos →
      ((Value.duration d).convertTo f .text).bind (·.convertTo f .duration) =
        some (.duration d)) ∧
    ∀ (s : String) (d : Duration), ofText? s = some d → ofText? d.toText = some d := by
  refine ⟨fun d => ?_, fun d e hd he hne heq => hne ?_, fun d hd => ?_, fun s d h => ?_⟩
  · obtain ⟨e, he, hn⟩ := ofText?_toText d
    have hshown := Fields.shown_split d.nanos.natAbs
    have hbound : d.nanos.natAbs / 1000000000 ≤ 9223372036854775 := by
      have := d.bound
      omega
    refine ⟨Fields.split d.nanos.natAbs, e, ⟨toChars_eq d, fields?_toChars hshown, ?_, ?_⟩, he, hn⟩
    · rwa [Fields.wholeSeconds_split]
    · have := hshown.ticks_lt
      omega
  · have h := ofText?_toText_of_dvd hd
    rw [heq, ofText?_toText_of_dvd he] at h
    exact (Option.some.inj h).symm
  · rw [convertTo_text, Option.bind_some, convertTo_duration, ofText?_toText_of_dvd hd]
    rfl
  · exact ofText?_toText_of_dvd (dvd_nanos_of_ofText? h)

/-- the longest negative duration; and a text with blanks, a sign, one digit of hours and no
seconds -/
theorem toText_truncates_longest :
    let longest : Duration := { nanos := -9223372036854775807000000 }
    let read : Duration := { nanos := -284700000000000 }
    longest.toText = "-106751991167.07:12:55.8070000" ∧
      (100 ∣ longest.nanos ∧ 100 ∣ read.nanos ∧ longest ≠ read ∧ longest.toText ≠ read.toText) ∧
      ((Value.duration longest).convertTo {} .text).bind (·.convertTo {} .duration) =
        some (.duration longest) ∧
      ofText? " -3.7:05 " = some read ∧ ofText? read.toText = some read := by
  intro longest read
  have hl : 100 ∣ longest.nanos := by decide
  have hr : 100 ∣ read.nanos := by decide
  have hne : longest ≠ read := by decide
  have hread : ofText? " -3.7:05 " = some read := by decide +kernel
  obtain ⟨-, hdistinct, hconvert, hagain⟩ := toText_truncates {}
  exact ⟨by decide +kernel, ⟨hl, hr, hne, hdistinct longest read hl hr hne⟩, hconvert longest hl,
    hread, hagain _ read hread⟩

end ExprLang.Duration
