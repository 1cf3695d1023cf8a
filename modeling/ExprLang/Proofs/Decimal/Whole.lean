import ExprLang.Proofs.Decimal.Exact

/-!
# Whole numbers and counts

* `Decimal.IsCount a k`        the number is the count `k`, and its sign is not negative;
* `Decimal.isNegativeZero a`   a zero with a negative sign.

A whole number denotes an integer without places (`isIntegral_iff`).  A position is a count of 64
bits (`toIndex?_eq_some_iff`), so of the numbers that denote a count only negative zeros are no
positions (`isCount_iff`).  Sums and differences of counts are counts: `IsCount.add`, `IsCount.sub`.
-/

namespace ExprLang.Decimal

structure IsCount (a : Decimal) (k : Nat) : Prop where
  sign : a.negative = false
  denotes : a.Denotes k 0

def isNegativeZero (a : Decimal) : Bool := a.negative && a.isZero

variable {a b c : Decimal} {k : Int} {x y : Nat}

/-! ## whole numbers -/

theorem denotes_zero_iff : a.Denotes k 0 ↔ a.signed = k * 10 ^ a.scale := by
  rw [Denotes, Int.pow_zero, Int.mul_one]

theorem Denotes.mantissa_eq (h : a.Denotes k 0) : a.mantissa = k.natAbs * 10 ^ a.scale := by
  have hm := h.natAbs_eq
  rwa [Nat.pow_zero, Nat.mul_one] at hm

theorem ten_pow_pos_nat (s : Nat) : 0 < 10 ^ s := Nat.pow_pos (by decide)

theorem isIntegral_iff : a.isIntegral = true ↔ ∃ k : Int, a.Denotes k 0 := by
  constructor
  · intro h
    have hm : a.mantissa = a.mantissa / 10 ^ a.scale * 10 ^ a.scale :=
      (Nat.div_mul_cancel (Nat.dvd_of_mod_eq_zero (beq_iff_eq.1 h))).symm
    exact ⟨_, denotes_of_parts (s := 0) rfl (by rw [Nat.pow_zero, Nat.mul_one]; exact hm)⟩
  · rintro ⟨k, hk⟩
    rw [isIntegral, hk.mantissa_eq, Nat.mul_mod_left]
    rfl

theorem Denotes.toInt_eq (h : a.Denotes k 0) : a.toInt = k := by
  have hs := denotes_zero_iff.1 h
  have hpos := ten_pow_pos a.scale
  unfold toInt
  unfold signed at hs
  rw [h.mantissa_eq] at hs ⊢
  rw [Nat.mul_div_cancel _ (ten_pow_pos_nat _)]
  rw [Int.natCast_mul, Int.natCast_pow] at hs
  dsimp only
  -- the sign belongs to the number, unless it is zero
  split
  · next hneg =>
    rw [if_pos hneg, ← Int.neg_mul] at hs
    exact Int.eq_of_mul_eq_mul_right (Int.ne_of_gt hpos) hs
  · next hneg =>
    rw [if_neg hneg] at hs
    exact Int.eq_of_mul_eq_mul_right (Int.ne_of_gt hpos) hs

theorem Denotes.unique {j : Int} (h : a.Denotes k 0) (hj : a.Denotes j 0) : k = j :=
  h.toInt_eq.symm.trans hj.toInt_eq

/-! ## counts -/

theorem IsCount.unique (h : a.IsCount x) (hy : a.IsCount y) : x = y :=
  Int.natCast_inj.1 (h.denotes.unique hy.denotes)

theorem isNegativeZero_of_negative (h : a.Denotes x 0) (hn : a.negative = true) :
    a.isNegativeZero = true := by
  have hs := denotes_zero_iff.1 h
  have hx : (0 : Int) ≤ x * 10 ^ a.scale :=
    Int.mul_nonneg (Int.natCast_nonneg x) (Int.le_of_lt (ten_pow_pos _))
  rw [signed, if_pos hn] at hs
  have hm : a.mantissa = 0 := by omega
  rw [isNegativeZero, hn, isZero, hm]
  rfl

theorem isCount_iff (h : a.isNegativeZero = false) : a.IsCount x ↔ a.Denotes x 0 := by
  refine ⟨IsCount.denotes, fun hx => ⟨?_, hx⟩⟩
  cases hn : a.negative with
  | false => rfl
  | true =>
    rw [isNegativeZero_of_negative hx hn] at h
    cases h

theorem IsCount.isNegativeZero (h : a.IsCount x) : a.isNegativeZero = false := by
  rw [Decimal.isNegativeZero, h.sign, Bool.false_and]

theorem isCount_ofNat (h : x < limit) : (ofNat x).IsCount x := by
  refine ⟨decide_eq_false (Int.not_lt.2 (Int.natCast_nonneg x)), ?_⟩
  rw [denotes_zero_iff]
  show (ofInt (x : Int)).signed = x * 10 ^ 0
  rw [signed_ofInt (i := (x : Int)) h, Int.pow_zero, Int.mul_one]

theorem toIndex?_eq_some_iff :
    a.toIndex? = some x ↔ a.IsCount x ∧ x < 18446744073709551616 := by
  constructor
  · intro h
    unfold toIndex? at h
    split at h
    · next hc =>
      obtain ⟨⟨hw, hs⟩, hlt⟩ : (a.isIntegral = true ∧ a.negative = false) ∧
          a.toInt.toNat < 18446744073709551616 := by
        simpa only [Bool.and_eq_true, Bool.not_eq_true', decide_eq_true_eq] using hc
      obtain ⟨k, hk⟩ := isIntegral_iff.1 hw
      have hk0 : 0 ≤ k := by
        rw [← hk.toInt_eq, toInt, hs]
        exact Int.natCast_nonneg _
      cases h
      rw [hk.toInt_eq] at hlt ⊢
      refine ⟨⟨hs, ?_⟩, hlt⟩
      rwa [Int.toNat_of_nonneg hk0]
    · cases h
  · rintro ⟨h, hlt⟩
    have hi := h.denotes.toInt_eq
    rw [toIndex?, isIntegral_iff.2 ⟨_, h.denotes⟩, h.sign, hi, Int.toNat_natCast]
    simp only [Bool.not_false, Bool.and_self, decide_eq_true hlt, if_true]

/-- positions of 64 bits that are a negative zero, a fraction or below zero are none -/
theorem toIndex?_eq_none (h : ∀ x, ¬ a.IsCount x) : a.toIndex? = none :=
  Option.eq_none_iff_forall_ne_some.2 fun x hx => h x (toIndex?_eq_some_iff.1 hx).1

/-! ## sums and differences of counts -/

theorem Denotes.alignedTo_eq (h : a.Denotes k 0) {s : Nat} (hs : a.scale ≤ s) :
    a.alignedTo s = k * 10 ^ s := by
  rw [alignedTo, signedAt, denotes_zero_iff.1 h, Int.mul_assoc, ← Int.pow_add,
    Nat.add_sub_cancel' hs]

theorem negative_of_add {j : Int} (ha : a.Denotes k 0) (hb : b.Denotes j 0) (hkj : 0 ≤ k + j)
    (hza : a.isZero = true → b.negative = false) (hzb : b.isZero = true → a.negative = false)
    (h : a.add b = some c) : c.negative = false := by
  unfold add at h
  split at h
  · next hz =>
    cases h
    exact hza hz
  · split at h
    · next hz =>
      cases h
      exact hzb hz
    · refine (fit_negative h).trans (decide_eq_false (Int.not_lt.2 ?_))
      rw [ha.alignedTo_eq (Nat.le_max_left ..), hb.alignedTo_eq (Nat.le_max_right ..),
        ← Int.add_mul]
      exact Int.mul_nonneg hkj (Int.le_of_lt (ten_pow_pos _))

namespace IsCount

theorem lt_limit (h : a.IsCount x) : x < limit := by
  have hm : a.mantissa = x * 10 ^ a.scale := h.denotes.mantissa_eq
  exact Nat.lt_of_le_of_lt (hm ▸ Nat.le_mul_of_pos_right x (ten_pow_pos_nat _)) a.mantissa_lt

theorem same (ha : a.IsCount x) (hb : b.IsCount x) : a.same b = true := by
  rw [same_iff, denotes_zero_iff.1 ha.denotes, denotes_zero_iff.1 hb.denotes, Int.mul_right_comm]

theorem isZero_iff (h : a.IsCount x) : a.isZero = true ↔ x = 0 := by
  have hm : a.mantissa = x * 10 ^ a.scale := h.denotes.mantissa_eq
  rw [isZero, beq_iff_eq, hm, Nat.mul_eq_zero]
  exact or_iff_left (Nat.ne_of_gt (ten_pow_pos_nat _))

theorem add (ha : a.IsCount x) (hb : b.IsCount y) (h : x + y < limit) :
    ∃ c, a.add b = some c ∧ c.IsCount (x + y) := by
  obtain ⟨c, hc, hd⟩ := ha.denotes.add (by decide) hb.denotes h
  have hneg := negative_of_add ha.denotes hb.denotes (by omega) (fun _ => hb.sign)
    (fun _ => ha.sign) hc
  exact ⟨c, hc, hneg, hd⟩

theorem sub (ha : a.IsCount x) (hb : b.IsCount y) (h : y ≤ x) :
    ∃ c, a.sub b = some c ∧ c.IsCount (x - y) := by
  by_cases hz : b.isZero = true
  · obtain rfl := hb.isZero_iff.1 hz
    by_cases hza : a.isZero = true
    · obtain rfl := ha.isZero_iff.1 hza
      refine ⟨b, ?_, hb⟩
      rw [Decimal.sub, if_pos hz, if_pos hza]
    · refine ⟨a, ?_, ha⟩
      rw [Decimal.sub, if_pos hz, if_neg hza]
  · have hneg : b.neg.Denotes (-(y : Int)) 0 := by
      rw [denotes_zero_iff, signed_neg, denotes_zero_iff.1 hb.denotes, Int.neg_mul]
      rfl
    have hx := ha.lt_limit
    have hy : y ≠ 0 := fun hy => hz (hb.isZero_iff.2 hy)
    obtain ⟨c, hc, hd⟩ := ha.denotes.add (by decide) hneg (by omega)
    have hsign : c.negative = false := by
      refine negative_of_add ha.denotes hneg (by omega) (fun hza => ?_)
        (fun hzb => absurd hzb hz) hc
      exact absurd (ha.isZero_iff.1 hza) (by omega)
    refine ⟨c, ?_, hsign, ?_⟩
    · rw [Decimal.sub, if_neg hz, hc]
    · rwa [Int.natCast_sub h]

end IsCount

end ExprLang.Decimal
