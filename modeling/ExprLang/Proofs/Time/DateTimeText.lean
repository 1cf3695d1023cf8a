import ExprLang.Proofs.Time.Calendar
import ExprLang.Proofs.Time.Written
import ExprLang.Proofs.Value.Symmetry

/-!
# Date-times are read as they are written

* `DateTime.fields t`   the fields that the text of a date-time shows;
* `ordinaryLayout`      the first of the layouts: date and time with seconds, divided by a blank.

Each part of this layout reads the field that is written there and stops in front of the next one
(`read_toChars`), so the layouts behind it are never tried.  The fields are those of one date-time
only (`dateTime?_fields`): the date of a day has its number (`CivilDate.ofDayNumber_spec`), and second
60 stands for a leap second.
-/

namespace ExprLang

open Text

/-! ## the text is of the first layout -/

def ordinaryLayout : Layout := dateLayout ++ .blanks :: secondsLayout

theorem layouts_eq : layouts = ordinaryLayout :: layouts.tail := rfl

namespace DateTime

def fields (t : DateTime) : DateTimeFields :=
  ⟨t.year, t.month, t.dayOfMonth, t.hour, t.minute, t.clockSecond, t.clockNano⟩

variable (t : DateTime)

theorem hour_lt : t.hour < 24 := by
  have := t.second_lt
  unfold hour
  omega

theorem minute_lt : t.minute < 60 := by
  unfold minute
  omega

theorem clockSecond_le : t.clockSecond ≤ 60 := by
  have := t.nano_lt
  have := t.leap
  unfold clockSecond
  omega

theorem clockNano_lt : t.clockNano < 1000000000 := Nat.mod_lt _ (by decide)

theorem month_le : t.month ≤ 12 := (Calendar.CivilDate.ofDayNumber_spec t.day).2.2

theorem dayOfMonth_le : t.dayOfMonth ≤ 31 := by
  have h := (Calendar.CivilDate.ofDayNumber_spec t.day).2.1
  rw [Calendar.CivilDate.isValid, Bool.and_eq_true, decide_eq_true_eq, decide_eq_true_eq] at h
  exact Nat.le_trans h.2 (Calendar.daysInMonth_le ..)

end DateTime

theorem Layout.read_cons {f g : DateTimeFields} {cs rest : List Char} {part : LayoutPart}
    (h : part.read f cs = some (g, rest)) (l : Layout) :
    Layout.read f cs (part :: l) = Layout.read g rest l := by
  rw [Layout.read, h, Option.bind_some]

namespace LayoutPart

variable (f : DateTimeFields) (rest : List Char)

theorem read_year (y : Int) : year.read f (yearChars .zero y ++ '-' :: rest) =
    some ({ f with year := y }, '-' :: rest) := by
  rw [LayoutPart.read, yearField?_yearChars]
  rfl

theorem read_exactly (c : Char) : (exactly c).read f (c :: rest) = some (f, rest) := by
  rw [LayoutPart.read, if_pos List.head?_cons, List.tail_cons]

/-- any part that is a number of two digits -/
theorem read_twoPlaces (part : LayoutPart) (set : Nat → DateTimeFields) {n : Nat} (h : n < 100)
    (hp : ∀ cs, part.read f cs =
      (numeral? 2 (trimStart cs)).map fun p => (set p.1, p.2)) :
    part.read f (twoPlaces .zero n ++ rest) = some (set n, rest) := by
  rw [hp, numeral?_twoPlaces h]
  rfl

theorem read_blanks {n : Nat} (h : n < 100) :
    blanks.read f (' ' :: (twoPlaces .zero n ++ rest)) = some (f, twoPlaces .zero n ++ rest) := by
  rw [LayoutPart.read, trimStart_cons, if_pos (by decide), twoPlaces_zero h, trimStart_zeroPadded]

end LayoutPart

theorem DateTime.read_toChars (t : DateTime) : ordinaryLayout.read {} t.toChars = some t.fields := by
  have hchars : t.toChars = yearChars .zero t.year ++ '-' :: (twoPlaces .zero t.month ++
      '-' :: (twoPlaces .zero t.dayOfMonth ++ ' ' :: (twoPlaces .zero t.hour ++
        ':' :: (twoPlaces .zero t.minute ++ ':' :: (twoPlaces .zero t.clockSecond ++
          fractionChars t.clockNano))))) := by
    rw [toChars]
    simp only [List.append_assoc, List.cons_append, List.nil_append]
  have hmonth := t.month_le
  have hday := t.dayOfMonth_le
  have hhour := t.hour_lt
  have hminute := t.minute_lt
  have hsecond := t.clockSecond_le
  show Layout.read {} t.toChars [.year, .exactly '-', .month, .exactly '-', .day, .blanks, .hour,
    .exactly ':', .minute, .exactly ':', .second, .fraction] = _
  rw [hchars, Layout.read_cons (LayoutPart.read_year ..),
    Layout.read_cons (LayoutPart.read_exactly ..),
    Layout.read_cons (LayoutPart.read_twoPlaces _ _ .month
      (fun n => { year := t.year, month := n }) (by omega) fun _ => rfl),
    Layout.read_cons (LayoutPart.read_exactly ..),
    Layout.read_cons (LayoutPart.read_twoPlaces _ _ .day
      (fun n => { year := t.year, month := t.month, day := n }) (by omega) fun _ => rfl),
    Layout.read_cons (LayoutPart.read_blanks _ _ (by omega)),
    Layout.read_cons (LayoutPart.read_twoPlaces _ _ .hour
      (fun n => { year := t.year, month := t.month, day := t.dayOfMonth, hour := n }) (by omega)
      fun _ => rfl),
    Layout.read_cons (LayoutPart.read_exactly ..),
    Layout.read_cons (LayoutPart.read_twoPlaces _ _ .minute
      (fun n => ⟨t.year, t.month, t.dayOfMonth, t.hour, n, 0, 0⟩) (by omega) fun _ => rfl),
    Layout.read_cons (LayoutPart.read_exactly ..),
    Layout.read_cons (LayoutPart.read_twoPlaces _ _ .second
      (fun n => ⟨t.year, t.month, t.dayOfMonth, t.hour, t.minute, n, 0⟩) (by omega) fun _ => rfl),
    Layout.read_cons (read_fractionChars rfl t.clockNano_lt)]
  rfl

/-! ## the fields are those of one date-time -/

namespace DateTime

variable (t : DateTime)

theorem dateTime?_fields : t.fields.dateTime? = some t := by
  obtain ⟨hday, hvalid, -⟩ := Calendar.CivilDate.ofDayNumber_spec t.day
  have hok : (Calendar.CivilDate.isValid ⟨t.year, t.month, t.dayOfMonth⟩ && decide (t.hour ≤ 23) &&
      decide (t.minute ≤ 59) && decide (t.clockSecond ≤ 60)) = true := by
    simp only [Bool.and_eq_true, decide_eq_true_eq]
    exact ⟨⟨⟨hvalid, Nat.le_of_lt_succ t.hour_lt⟩, Nat.le_of_lt_succ t.minute_lt⟩,
      t.clockSecond_le⟩
  have hclock : t.hour * 3600 + t.minute * 60 + t.second % 60 = t.second := by
    unfold hour minute
    omega
  have hmake : make? t.day t.second t.nano = some t := make?_eq_some_iff.2 ⟨rfl, rfl, rfl⟩
  have hnano := t.nano_lt
  have hleap := t.leap
  refine (if_pos hok).trans ?_
  show (if t.clockSecond = 60 then
      make? (Calendar.CivilDate.toDayNumber ⟨t.year, t.month, t.dayOfMonth⟩)
        (t.hour * 3600 + t.minute * 60 + 59) (1000000000 + t.clockNano)
    else make? (Calendar.CivilDate.toDayNumber ⟨t.year, t.month, t.dayOfMonth⟩)
      (t.hour * 3600 + t.minute * 60 + t.clockSecond) t.clockNano) = some t
  have hdate : Calendar.CivilDate.toDayNumber ⟨t.year, t.month, t.dayOfMonth⟩ = t.day := hday
  rw [hdate]
  by_cases hn : t.nano < 1000000000
  · have hs : t.clockSecond = t.second % 60 := by
      unfold clockSecond
      omega
    have hc : t.clockNano = t.nano := Nat.mod_eq_of_lt hn
    rw [if_neg (by omega), hs, hclock, hc, hmake]
  · have hs : t.clockSecond = 60 := by
      unfold clockSecond
      omega
    have hc : 1000000000 + t.clockNano = t.nano := by
      unfold clockNano
      omega
    have h59 : t.hour * 3600 + t.minute * 60 + 59 = t.second := by omega
    rw [if_pos hs, h59, hc, hmake]

/-! ## blanks around the text -/

theorem not_blank_ends :
    (∀ c, t.toChars.head? = some c → isBlank c = false) ∧
      ∀ c, t.toChars.getLast? = some c → isBlank c = false := by
  obtain ⟨c, cs, hyear, hc⟩ := yearChars_eq_cons t.year
  have hsecond : t.clockSecond < 100 := Nat.lt_of_le_of_lt t.clockSecond_le (by decide)
  have hend : ∀ x ∈ twoPlaces .zero t.clockSecond ++ fractionChars t.clockNano,
      isBlank x = false :=
    List.forall_mem_append.2 ⟨fun _ hx => isDigit_not_blank (isDigit_of_mem_twoPlaces hsecond hx),
      not_blank_of_mem_fractionChars⟩
  have hne : twoPlaces .zero t.clockSecond ++ fractionChars t.clockNano ≠ [] := by
    rw [twoPlaces_zero hsecond]
    exact fun he => zeroPadded_ne_nil _ _ (List.append_eq_nil_iff.1 he).1
  constructor
  · intro x hx
    rw [toChars, hyear] at hx
    cases hx
    exact hc
  · intro x hx
    rw [toChars, List.append_assoc, List.getLast?_append, List.getLast?_eq_some_getLast hne,
      Option.some_or] at hx
    cases hx
    exact hend _ (List.getLast_mem hne)

theorem ofText?_around {a b : List Char} (ha : ∀ c ∈ a, isBlank c = true)
    (hb : ∀ c ∈ b, isBlank c = true) : ofText? (String.ofList (a ++ t.toChars ++ b)) = some t := by
  have hne : t.toChars ≠ [] := by
    obtain ⟨c, cs, hyear, -⟩ := yearChars_eq_cons t.year
    rw [toChars, hyear]
    exact nofun
  have hread : Layout.dateTime? t.toChars ordinaryLayout = some t := by
    rw [Layout.dateTime?, t.read_toChars, Option.bind_some, t.dateTime?_fields]
  rw [ofText?, String.toList_ofList,
    trimChars_between t.not_blank_ends.1 t.not_blank_ends.2 hne ha hb, layouts_eq,
    List.findSome?_cons, hread]

theorem ofText?_toText : ofText? t.toText = some t := by
  have h := t.ofText?_around (a := []) (b := []) (List.forall_mem_nil _) (List.forall_mem_nil _)
  rwa [List.append_nil, List.nil_append] at h

theorem convertTo_text (f : NumberFormat) :
    (Value.dateTime t).convertTo f .text = some (.text t.toText) := rfl

theorem convertTo_dateTime (f : NumberFormat) (s : String) :
    (Value.text s).convertTo f .dateTime = (ofText? s).map .dateTime := rfl

theorem toText_injective {t u : DateTime} (h : t.toText = u.toText) : t = u := by
  have ht := t.ofText?_toText
  rw [h, u.ofText?_toText] at ht
  exact (Option.some.inj ht).symm

theorem order_toText {c : Comparer}
    (hn : ∀ v : Value, v.kind.isHost = false → c.normalizer.apply v = v) :
    c.order (.dateTime t) (.text t.toText) = .ok (some .eq) := by
  have hm : (Value.dateTime t).kind.mixed (Value.text t.toText).kind = true := rfl
  rw [Comparer.order_of_kept (hn (.dateTime t) rfl) (hn _ rfl) (fun h => nomatch h.1),
    pairOrder_of_mixed _ hm, convertedOrder_read, t.ofText?_toText]
  show Except.ok (some (t.compare t)) = _
  rw [compare_eq_iff.2 rfl]

/-- the text of a date-time, with blanks around it too, is read as this date-time; so no two have
one text, and each is equal to its text -/
theorem toText_inverts :
    (∀ (t : DateTime) (a b : List Char), (∀ x ∈ a, isBlank x = true) →
      (∀ x ∈ b, isBlank x = true) → ofText? (String.ofList (a ++ t.toText.toList ++ b)) = some t) ∧
    (∀ (t : DateTime) (f : NumberFormat), ofText? t.toText = some t ∧
      ((Value.dateTime t).convertTo f .text).bind (·.convertTo f .dateTime) =
        some (.dateTime t)) ∧
    (∀ t u : DateTime, t ≠ u → t.toText ≠ u.toText) ∧
    ∀ c : Comparer, (∀ v : Value, v.kind.isHost = false → c.normalizer.apply v = v) →
      ∀ t : DateTime,
        c.compare (.dateTime t) (.text (Value.dateTime t).display) = .ok (some .eq) := by
  refine ⟨fun t a b ha hb => ?_, fun t f => ⟨t.ofText?_toText, ?_⟩,
    fun t u hne h => hne (toText_injective h), fun c hn t => ?_⟩
  · rw [toText, String.toList_ofList]
    exact t.ofText?_around ha hb
  · rw [convertTo_text, Option.bind_some, convertTo_dateTime, t.ofText?_toText]
    rfl
  · have hdisplay : (Value.dateTime t).display = t.toText := rfl
    rw [hdisplay, Comparer.compare, t.order_toText hn]

/-- the last moment of a leap second on the first day there is -/
theorem toText_inverts_leap :
    let c : Comparer := { options := { nullComparison := .sql }, normalizer := .unwrapping }
    let t : DateTime := { day := -95746129, second := 86399, nano := 1999999999 }
    let u : DateTime := { day := -95746129, second := 86399, nano := 999999999 }
    (∀ v : Value, v.kind.isHost = false → c.normalizer.apply v = v) ∧
      t.toText = "-262143-01-01 23:59:60.999999999" ∧
      ofText? (String.ofList ([' ', '\t'] ++ t.toText.toList ++ ['\n'])) = some t ∧
      (t ≠ u ∧ t.toText ≠ u.toText) ∧
      c.compare (.dateTime t) (.text (Value.dateTime t).display) = .ok (some .eq) := by
  intro c t u
  have hn : ∀ v : Value, v.kind.isHost = false → c.normalizer.apply v = v :=
    fun _ => Normalizer.unwrapping_of_plain
  have hne : t ≠ u := by decide
  have hbefore : ∀ x ∈ [' ', '\t'], isBlank x = true :=
    List.forall_mem_cons.2 ⟨by decide, List.forall_mem_singleton.2 (by decide)⟩
  have hbehind : ∀ x ∈ ['\n'], isBlank x = true := List.forall_mem_singleton.2 (by decide)
  obtain ⟨haround, -, hdistinct, hequal⟩ := toText_inverts
  exact ⟨hn, by decide +kernel, haround t _ _ hbefore hbehind, ⟨hne, hdistinct t u hne⟩,
    hequal c hn t⟩

end DateTime

end ExprLang
