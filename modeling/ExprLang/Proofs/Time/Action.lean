import ExprLang.Eval.Operate
import ExprLang.Proofs.Time.Instant
import ExprLang.Proofs.Value.Symmetry

/-!
# Durations act on date-times

The operators on date-times and durations, outside leap seconds, are sums and differences of
instants (`DateTime.instant`) as long as they stay in range.  So a sum is undone by the difference
(`sub?_of_add?`), the difference of two date-times leads from one to the other (`add?_since`), and its
sign is their order (`lessThan_dateTimes`).
-/

namespace ExprLang

/-! ## sums undone -/

namespace Duration

variable {d e r : Duration}

theorem sub?_of_add? (h : d.add? e = some r) : r.sub? e = some d := by
  have hr := ofNanos?_eq_some.1 h
  rw [sub?, hr, Int.add_sub_cancel, ofNanos?_nanos]

end Duration

namespace DateTime

variable {t u : DateTime} {d : Duration}

theorem sub?_of_add? (ht : t.isLeapSecond = false) (h : t.add? d = some u) :
    u.sub? d = some t ∧ u.since t = d := by
  obtain ⟨hu, hi⟩ := (add?_eq_some_iff ht).1 h
  constructor
  · rw [sub?_eq_some_iff hu]
    exact ⟨ht, by omega⟩
  · apply Duration.eq_of_nanos
    rw [nanos_since hu ht]
    omega

theorem add?_since (ht : t.isLeapSecond = false) (hu : u.isLeapSecond = false) :
    u.add? (t.since u) = some t := by
  rw [add?_eq_some_iff hu, nanos_since ht hu]
  exact ⟨ht, by omega⟩

theorem neg_since (ht : t.isLeapSecond = false) (hu : u.isLeapSecond = false) :
    (u.since t).neg = t.since u := by
  apply Duration.eq_of_nanos
  show -(u.since t).nanos = _
  rw [nanos_since ht hu, nanos_since hu ht]
  omega

theorem sub?_neg (t : DateTime) (d : Duration) : t.sub? d.neg = t.add? d := by
  rw [sub?, Duration.neg_neg]

end DateTime

/-! ## operators -/

theorem Value.Kind.of_isTemporal {k : Kind} (h : k.isTemporal = true) :
    k.isHost = false ∧ k ≠ .sequence ∧ k ≠ .null ∧ k ≠ .boolean := by
  cases k <;> first | decide | cases h

/-- two date-times, or two durations, are compared in the order of their kind -/
theorem Comparer.compare_temporal {c : Comparer}
    (hn : ∀ v : Value, v.kind.isHost = false → c.normalizer.apply v = v) {a b : Value}
    (ha : a.kind.isTemporal = true) (hb : b.kind.isTemporal = true) {o : Ordering}
    (ho : naturalOrder a b = some o) : c.compare a b = .ok (some o) := by
  obtain ⟨hha, hsa, hpa⟩ := Value.Kind.of_isTemporal ha
  obtain ⟨hhb, -, hpb⟩ := Value.Kind.of_isTemporal hb
  have hplain : isNumeric a = false ∧ isText a = false := by
    cases a <;> first | exact ⟨rfl, rfl⟩ | cases ha
  have horder : c.order a b = .ok (some o) := by
    rw [order_of_kept (hn a hha) (hn b hhb) fun h => hsa h.1, pairOrder_eq_plainOrder _ hpa hpb,
      plainOrder_converted _ hplain.1 hplain.2, convertedOrder, ho]
  rw [compare, horder]

namespace BinaryOp

section
variable {c : Comparer}
  (hn : ∀ v : Value, v.kind.isHost = false → c.normalizer.apply v = v)
include hn

theorem lessThan_temporal {a b : Value} (ha : a.kind.isTemporal = true)
    (hb : b.kind.isTemporal = true) {o : Ordering} (ho : naturalOrder a b = some o) :
    lessThan.apply c a b = .ok (.boolean o.isLT) := by
  show ordered c Ordering.isLT a b = _
  rw [ordered, Comparer.compare_temporal hn ha hb ho]
  rfl

theorem lessThan_dateTimes {t u : DateTime} (ht : t.isLeapSecond = false)
    (hu : u.isLeapSecond = false) : lessThan.apply c (.dateTime t) (.dateTime u) =
      .ok (.boolean (decide ((t.since u).nanos < 0))) := by
  have hlt : (t.compare u).isLT = decide ((t.since u).nanos < 0) := by
    rw [Bool.eq_iff_iff, Ordering.isLT_iff_eq_lt, DateTime.compare_eq_lt_iff ht hu,
      decide_eq_true_eq, DateTime.nanos_since ht hu]
    omega
  rw [lessThan_temporal hn rfl rfl (o := t.compare u) rfl, hlt]

theorem lessThan_zero (d : Duration) : lessThan.apply c (.duration d) (.duration .zero) =
    .ok (.boolean (decide (d.nanos < 0))) := by
  have hlt : (d.compare .zero).isLT = decide (d.nanos < 0) := by
    rw [Bool.eq_iff_iff, Ordering.isLT_iff_eq_lt, decide_eq_true_eq]
    exact Std.compare_eq_lt
  rw [lessThan_temporal hn rfl rfl (o := d.compare .zero) rfl, hlt]

end

theorem orOverflow_eq_ok {α : Type} {op : BinaryOp} {o : Option α} {f : α → Value} {v : Value} :
    orOverflow op (o.map f) = .ok v ↔ ∃ x, o = some x ∧ f x = v := by
  constructor
  · intro h
    cases o with
    | none => cases h
    | some x =>
      cases h
      exact ⟨x, rfl, rfl⟩
  · rintro ⟨x, rfl, rfl⟩
    rfl

theorem orOverflow_eq_error {α : Type} {op : BinaryOp} {o : Option α} {f : α → Value} :
    (∃ e, orOverflow op (o.map f) = .error e) ↔ o = none := by
  constructor
  · rintro ⟨e, h⟩
    cases o with
    | none => rfl
    | some x => cases h
  · rintro rfl
    exact ⟨_, rfl⟩

section
variable (c : Comparer) (t u : DateTime) (d e : Duration)

theorem add_dateTime_duration : add.apply c (.dateTime t) (.duration d) =
    orOverflow .add ((t.add? d).map .dateTime) := rfl

theorem add_duration_dateTime : add.apply c (.duration d) (.dateTime t) =
    orOverflow .add ((t.add? d).map .dateTime) := rfl

theorem add_durations : add.apply c (.duration d) (.duration e) =
    orOverflow .add ((d.add? e).map .duration) := rfl

theorem subtract_dateTimes : subtract.apply c (.dateTime t) (.dateTime u) =
    .ok (.duration (t.since u)) := rfl

theorem subtract_dateTime_duration : subtract.apply c (.dateTime t) (.duration d) =
    orOverflow .subtract ((t.sub? d).map .dateTime) := rfl

theorem subtract_durations : subtract.apply c (.duration d) (.duration e) =
    orOverflow .subtract ((d.sub? e).map .duration) := rfl

end

/-- differences of date-times lead from one to the other and are below zero just if the first is
earlier; sums with durations commute, are undone, and fail only out of range -/
theorem durations_act (c : Comparer) :
    (∀ a b : DateTime, a.isLeapSecond = false → b.isLeapSecond = false → ∃ s r : Duration,
      subtract.apply c (.dateTime a) (.dateTime b) = .ok (.duration s) ∧
      add.apply c (.duration s) (.dateTime b) = .ok (.dateTime a) ∧
      subtract.apply c (.dateTime b) (.dateTime a) = .ok (.duration r) ∧
      UnaryOp.negate.apply (.duration r) = .ok (.duration s) ∧
      ((∀ v : Value, v.kind.isHost = false → c.normalizer.apply v = v) →
        lessThan.apply c (.dateTime a) (.dateTime b) = .ok (.boolean (decide (s.nanos < 0))) ∧
        lessThan.apply c (.duration s) (.duration .zero) =
          .ok (.boolean (decide (s.nanos < 0))))) ∧
    (∀ (a : DateTime) (d : Duration), a.isLeapSecond = false →
      add.apply c (.dateTime a) (.duration d) = add.apply c (.duration d) (.dateTime a) ∧
      ((∃ b, add.apply c (.dateTime a) (.duration d) = .ok (.dateTime b) ∧
          subtract.apply c (.dateTime b) (.duration d) = .ok (.dateTime a) ∧
          subtract.apply c (.dateTime b) (.dateTime a) = .ok (.duration d)) ∨
        add.apply c (.dateTime a) (.duration d) = .error (.overflow .add)) ∧
      ∃ m, UnaryOp.negate.apply (.duration d) = .ok (.duration m) ∧
        ((∃ e, add.apply c (.dateTime a) (.duration d) = .error e) ↔
          ∃ e, subtract.apply c (.dateTime a) (.duration m) = .error e) ∧
        ∀ v, add.apply c (.dateTime a) (.duration d) = .ok v ↔
          subtract.apply c (.dateTime a) (.duration m) = .ok v) ∧
    (∀ (d e : Duration) (v : Value), add.apply c (.duration d) (.duration e) = .ok v →
      subtract.apply c v (.duration e) = .ok (.duration d)) ∧
    ∀ d : Duration, ∃ m, UnaryOp.negate.apply (.duration d) = .ok m ∧
      UnaryOp.negate.apply m = .ok (.duration d) := by
  refine ⟨fun a b ha hb => ?_, fun a d ha => ?_, fun d e v h => ?_, fun d => ?_⟩
  · refine ⟨a.since b, b.since a, rfl, ?_, rfl, ?_,
      fun hn => ⟨lessThan_dateTimes hn ha hb, lessThan_zero hn _⟩⟩
    · rw [add_duration_dateTime, DateTime.add?_since ha hb]
      rfl
    · exact congrArg (fun d => Except.ok (Value.duration d)) (DateTime.neg_since ha hb)
  · refine ⟨rfl, ?_, d.neg, rfl, ?_⟩
    · rw [add_dateTime_duration]
      cases h : a.add? d with
      | none => exact .inr rfl
      | some b =>
        obtain ⟨hsub, hsince⟩ := DateTime.sub?_of_add? ha h
        refine .inl ⟨b, rfl, ?_, ?_⟩
        · rw [subtract_dateTime_duration, hsub]
          rfl
        · rw [subtract_dateTimes, hsince]
    · rw [add_dateTime_duration, subtract_dateTime_duration, DateTime.sub?_neg]
      exact ⟨orOverflow_eq_error.trans orOverflow_eq_error.symm,
        fun v => orOverflow_eq_ok.trans orOverflow_eq_ok.symm⟩
  · rw [add_durations] at h
    obtain ⟨r, hr, rfl⟩ := orOverflow_eq_ok.1 h
    rw [subtract_durations, Duration.sub?_of_add? hr]
    rfl
  · exact ⟨.duration d.neg, rfl, congrArg (fun d => Except.ok (Value.duration d)) d.neg_neg⟩

/-- the first and the last date-time there are and the longest duration, a nanosecond back from
each -/
theorem durations_act_ends :
    let c : Comparer := { normalizer := .unwrapping }
    let first : DateTime := { day := -95746129, second := 0, nano := 0 }
    let last : DateTime := { day := 95745399, second := 86399, nano := 999999999 }
    let longest : Duration := { nanos := 9223372036854775807000000 }
    let back : Duration := { nanos := -1 }
    (∀ v : Value, v.kind.isHost = false → c.normalizer.apply v = v) ∧
      (first.isLeapSecond = false ∧ last.isLeapSecond = false) ∧
      (∃ s, subtract.apply c (.dateTime first) (.dateTime last) = .ok (.duration s) ∧
        add.apply c (.duration s) (.dateTime last) = .ok (.dateTime first) ∧
        lessThan.apply c (.dateTime first) (.dateTime last) = .ok (.boolean true)) ∧
      (∃ e, subtract.apply c (.dateTime first) (.duration { nanos := 1 }) = .error e) ∧
      (∃ t, add.apply c (.dateTime last) (.duration back) = .ok (.dateTime t) ∧
        subtract.apply c (.dateTime t) (.duration back) = .ok (.dateTime last)) ∧
      ∃ v, add.apply c (.duration longest) (.duration back) = .ok v ∧
        subtract.apply c v (.duration back) = .ok (.duration longest) := by
  intro c first last longest back
  have hn : ∀ v : Value, v.kind.isHost = false → c.normalizer.apply v = v :=
    fun _ => Normalizer.unwrapping_of_plain
  have hfirst : first.isLeapSecond = false := by decide
  have hlast : last.isLeapSecond = false := by decide
  obtain ⟨hdifference, hsum, hdurations, -⟩ := durations_act c
  refine ⟨hn, ⟨hfirst, hlast⟩, ?_, ?_, ?_, ?_⟩
  · obtain ⟨s, r, hs, hadd, -, -, hlt⟩ := hdifference first last hfirst hlast
    cases hs
    refine ⟨_, rfl, hadd, (hlt hn).1.trans ?_⟩
    have hneg : decide ((first.since last).nanos < 0) = true := by decide
    rw [hneg]
  · obtain ⟨-, -, m, hm, herror, -⟩ := hsum first back hfirst
    cases hm
    have hnone : first.add? back = none := by decide +kernel
    exact herror.1 ⟨.overflow .add, by rw [add_dateTime_duration, hnone]; rfl⟩
  · obtain ⟨-, ⟨b, hb, hsub, -⟩ | hover, -⟩ := hsum last back hlast
    · exact ⟨b, hb, hsub⟩
    · have hsome : (last.add? back).isSome = true := by decide +kernel
      obtain ⟨b, hb⟩ := Option.isSome_iff_exists.1 hsome
      rw [add_dateTime_duration, hb] at hover
      cases hover
  · have hsome : (longest.add? back).isSome = true := by decide
    obtain ⟨r, hr⟩ := Option.isSome_iff_exists.1 hsome
    have hadd : add.apply c (.duration longest) (.duration back) = .ok (.duration r) := by
      rw [add_durations, hr]
      rfl
    exact ⟨_, hadd, hdurations longest back _ hadd⟩

end BinaryOp

end ExprLang
