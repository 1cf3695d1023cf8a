import ExprLang.Time.Calendar

/-!
# Days and dates

* `daysInYear y`           the length of a year;
* `daysInMonths lengths`   the days of some months together.

A numbered day lies in the year `yearOf` (`daysBeforeYear_yearOf`), its day of the year in a month
(`monthFrom_spec`), and the date found in this way is one of the calendar and has the number again
(`CivilDate.ofDayNumber_spec`).
-/

namespace ExprLang.Calendar

/-! ## years -/

def daysInYear (y : Int) : Nat := if isLeapYear y then 366 else 365

theorem isLeapYear_iff (y : Int) :
    isLeapYear y = true ↔ y % 4 = 0 ∧ (y % 100 ≠ 0 ∨ y % 400 = 0) := by
  simp [isLeapYear]

theorem daysBeforeYear_succ (y : Int) :
    daysBeforeYear (y + 1) = daysBeforeYear y + daysInYear y := by
  have h := isLeapYear_iff y
  unfold daysBeforeYear daysInYear
  by_cases hy : isLeapYear y = true
  · rw [if_pos hy]
    have := h.1 hy
    omega
  · rw [if_neg hy]
    rw [h] at hy
    omega

section
variable {q c k m : Int} (hc : 0 ≤ c ∧ c ≤ 3) (hk : 0 ≤ k ∧ k ≤ 24) (hm : 0 ≤ m ∧ m ≤ 3)
include hc hk hm

/-- the days before the `m`-th year of the `k`-th four years of the `c`-th century of the `q`-th
four centuries, all counted from zero -/
theorem daysBeforeYear_parts : daysBeforeYear (400 * q + 100 * c + 4 * k + m + 1) =
    146097 * q + 36524 * c + 1461 * k + 365 * m := by
  unfold daysBeforeYear
  have h4 : (400 * q + 100 * c + 4 * k + m + 1 - 1) / 4 = 100 * q + 25 * c + k := by omega
  have h100 : (400 * q + 100 * c + 4 * k + m + 1 - 1) / 100 = 4 * q + c := by omega
  have h400 : (400 * q + 100 * c + 4 * k + m + 1 - 1) / 400 = q := by omega
  rw [h4, h100, h400]
  omega

/-- the last of four years has a further day, unless it ends one of the first three centuries -/
theorem isLeapYear_parts : isLeapYear (400 * q + 100 * c + 4 * k + m + 1) = true ↔
    m = 3 ∧ (k ≠ 24 ∨ c = 3) := by
  rw [isLeapYear_iff]
  omega

end

theorem daysBeforeYear_yearOf (n : Int) :
    daysBeforeYear (yearOf n) < n ∧ n ≤ daysBeforeYear (yearOf n + 1) := by
  unfold yearOf
  generalize hq : (n - 1) / 146097 = q
  generalize hr : (n - 1) % 146097 = r
  dsimp only
  generalize hc : min 3 (r / 36524) = c
  generalize hk : (r - c * 36524) / 1461 = k
  generalize hf : (r - c * 36524) % 1461 = f
  generalize hm : min 3 (f / 365) = m
  have hcb : 0 ≤ c ∧ c ≤ 3 := by omega
  have hkb : 0 ≤ k ∧ k ≤ 24 := by omega
  have hmb : 0 ≤ m ∧ m ≤ 3 := by omega
  have hleap := isLeapYear_parts (q := q) hcb hkb hmb
  rw [daysBeforeYear_succ (_ + m + 1), daysBeforeYear_parts hcb hkb hmb, daysInYear]
  by_cases hl : isLeapYear (400 * q + 100 * c + 4 * k + m + 1) = true
  · rw [if_pos hl]
    have := hleap.1 hl
    omega
  · rw [if_neg hl]
    rw [hleap] at hl
    omega

theorem ordinalOf_spec (n : Int) :
    daysBeforeYear (yearOf n) + ordinalOf n = n ∧ 1 ≤ ordinalOf n ∧
      ordinalOf n ≤ daysInYear (yearOf n) := by
  have h := daysBeforeYear_yearOf n
  rw [daysBeforeYear_succ] at h
  unfold ordinalOf
  omega

/-! ## months -/

def daysInMonths (lengths : List Nat) : Nat := lengths.foldl (· + ·) 0

theorem daysInMonths_cons (l : Nat) (ls : List Nat) :
    daysInMonths (l :: ls) = l + daysInMonths ls := by
  have hfrom (k : Nat) : ls.foldl (· + ·) k = k + daysInMonths ls := by
    rw [daysInMonths]
    induction ls generalizing k with
    | nil => rfl
    | cons m ms ih =>
      rw [List.foldl_cons, List.foldl_cons, ih, ih (0 + m)]
      omega
  rw [daysInMonths, List.foldl_cons, hfrom, Nat.zero_add]

theorem monthFrom_spec {lengths : List Nat} (m : Nat) {ordinal : Nat} (h : 1 ≤ ordinal)
    (hle : ordinal ≤ daysInMonths lengths) :
    ∃ i d, monthFrom m ordinal lengths = (m + i, d) ∧ i < lengths.length ∧
      daysInMonths (lengths.take i) + d = ordinal ∧ 1 ≤ d ∧ d ≤ lengths.getD i 0 := by
  induction lengths generalizing m ordinal with
  | nil => exact absurd (Nat.le_trans h hle) (by decide)
  | cons l ls ih =>
    rw [daysInMonths_cons] at hle
    by_cases hl : ordinal ≤ l
    · refine ⟨0, ordinal, ?_, Nat.succ_pos _, Nat.zero_add _, h, hl⟩
      rw [monthFrom, if_pos (.inl hl)]
      rfl
    · have hne : ¬ ls.isEmpty = true := by
        intro he
        rw [List.isEmpty_iff.1 he] at hle
        exact hl hle
      have hbehind : 1 ≤ ordinal - l := by omega
      obtain ⟨i, d, hm, hi, hd, h1, h2⟩ := ih (m + 1) hbehind (by omega)
      refine ⟨i + 1, d, ?_, Nat.succ_lt_succ hi, ?_, h1, h2⟩
      · rw [monthFrom, if_neg fun h => h.elim hl hne, hm, Nat.add_assoc,
          Nat.add_comm 1 i]
      · rw [List.take_succ_cons, daysInMonths_cons]
        omega

theorem daysInMonths_monthLengths (y : Int) :
    daysInMonths (monthLengths (isLeapYear y)) = daysInYear y := by
  unfold daysInYear
  cases isLeapYear y <;> rfl

theorem daysInMonth_le (y : Int) (m : Nat) : daysInMonth y m ≤ 31 := by
  have hall : ∀ l ∈ monthLengths (isLeapYear y), l ≤ 31 := by
    cases isLeapYear y <;> decide
  rw [daysInMonth, List.getD_eq_getElem?_getD]
  split
  · exact Nat.zero_le _
  · cases h : (monthLengths (isLeapYear y))[m - 1]? with
    | none => exact Nat.zero_le _
    | some l => exact hall l (List.mem_of_getElem? h)

/-! ## dates -/

theorem CivilDate.ofDayNumber_spec (n : Int) :
    (ofDayNumber n).toDayNumber = n ∧ (ofDayNumber n).isValid = true ∧
      (ofDayNumber n).month ≤ 12 := by
  obtain ⟨hn, h1, hle⟩ := ordinalOf_spec n
  rw [← daysInMonths_monthLengths] at hle
  obtain ⟨i, d, hm, hi, hd, hd1, hd2⟩ := monthFrom_spec 1 h1 hle
  have hdate : ofDayNumber n = ⟨yearOf n, i + 1, d⟩ := by
    rw [ofDayNumber, hm, Nat.add_comm]
  rw [hdate]
  refine ⟨?_, ?_, ?_⟩
  · show daysBeforeYear (yearOf n) +
      (daysInMonths ((monthLengths (isLeapYear (yearOf n))).take i) : Nat) + d = n
    omega
  · have hlen : daysInMonth (yearOf n) (i + 1) =
        (monthLengths (isLeapYear (yearOf n))).getD i 0 := if_neg (Nat.succ_ne_zero i)
    rw [isValid, hlen, Bool.and_eq_true, decide_eq_true_eq, decide_eq_true_eq]
    exact ⟨hd1, hd2⟩
  · exact hi

end ExprLang.Calendar
