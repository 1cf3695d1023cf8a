import ExprLang.Decimal.Arithmetic
import ExprLang.Decimal.Division

/-!
# Results without rounding

* `Decimal.Denotes a n s`   the number is `n / 10^s`.

Fitting cuts off as few places as it can, so what a decimal can hold is not rounded (`fit_exact`): a
sum or a product that some decimal denotes is the exact number (`add_exact`, `mul_exact`), and a
product whose whole part is too large is none (`mul_eq_none`).  A quotient by one is exact as well
(`div_one_denotes`), and the fewest places leave a number as it is (`normalize_denotes`).
-/

namespace ExprLang

theorem divRound_mul (m : Nat) {d : Nat} (hd : 0 < d) : divRound (m * d) d = m := by
  have hmod : m * d % d = 0 := Nat.mul_mod_left ..
  have hdiv : m * d / d = m := Nat.mul_div_cancel m hd
  have h : ¬(d < 2 * (m * d % d) ∨ (2 * (m * d % d) = d ∧ m * d / d % 2 = 1)) := by omega
  rw [divRound, if_neg h, hdiv]

namespace Decimal

def Denotes (a : Decimal) (n : Int) (s : Nat) : Prop := a.signed * 10 ^ s = n * 10 ^ a.scale

instance (a : Decimal) (n : Int) (s : Nat) : Decidable (a.Denotes n s) :=
  inferInstanceAs (Decidable (_ = _))

theorem zero_denotes (s : Nat) : zero.Denotes 0 s := by
  show (0 : Int) * 10 ^ s = 0 * 10 ^ 0
  rw [Int.zero_mul, Int.zero_mul]

theorem ten_pow_pos (k : Nat) : (0 : Int) < 10 ^ k := Int.pow_pos (by decide)

/-- equal fractions with powers of ten below the line -/
theorem fraction_trans {l m n : Int} {s t u : Nat} (h : l * 10 ^ t = m * 10 ^ s)
    (h' : m * 10 ^ u = n * 10 ^ t) : l * 10 ^ u = n * 10 ^ s := by
  refine Int.eq_of_mul_eq_mul_right (Int.ne_of_gt (ten_pow_pos t)) ?_
  calc l * 10 ^ u * 10 ^ t
    _ = l * 10 ^ t * 10 ^ u := Int.mul_right_comm ..
    _ = m * 10 ^ s * 10 ^ u := congrArg (· * 10 ^ u) h
    _ = m * 10 ^ u * 10 ^ s := Int.mul_right_comm ..
    _ = n * 10 ^ t * 10 ^ s := congrArg (· * 10 ^ s) h'
    _ = n * 10 ^ s * 10 ^ t := Int.mul_right_comm ..

variable {a b : Decimal} {n : Int} {s : Nat}

theorem Denotes.trans (hab : a.Denotes b.signed b.scale) (hb : b.Denotes n s) : a.Denotes n s :=
  fraction_trans hab hb

theorem Denotes.mul_left (k : Int) (h : a.Denotes n s) :
    k * a.signed * 10 ^ s = k * n * 10 ^ a.scale := by
  rw [Int.mul_assoc, h, Int.mul_assoc]

/-- the whole part of a number, toward zero -/
theorem Denotes.tdiv_eq (h : a.Denotes n s) :
    a.signed.tdiv (10 ^ a.scale) = n.tdiv (10 ^ s) := by
  rw [← Int.mul_tdiv_mul_of_pos_left a.signed (10 ^ a.scale) (ten_pow_pos s), h,
    Int.mul_comm (10 ^ a.scale), Int.mul_tdiv_mul_of_pos_left n _ (ten_pow_pos a.scale)]

/-- the mantissa at a larger scale is the same number -/
theorem denotes_alignedTo (h : a.scale ≤ s) : a.Denotes (a.alignedTo s) s := by
  rw [Denotes, alignedTo, signedAt, Int.mul_assoc, ← Int.pow_add, Nat.sub_add_cancel h]

theorem signed_eq_zero (h : a.isZero = true) : a.signed = 0 := by
  rw [signed, beq_iff_eq.1 h]
  exact ite_self _

theorem signed_natAbs (i : Int) :
    (if decide (i < 0) = true then -(i.natAbs : Int) else i.natAbs) = i := by
  simp only [decide_eq_true_eq]
  omega

theorem signed_ofInt {i : Int} (h : i.natAbs < limit) : (ofInt i).signed = i := by
  have hm : (ofInt i).mantissa = i.natAbs := Nat.min_eq_left (Nat.le_sub_one_of_lt h)
  rw [signed, hm]
  exact signed_natAbs i

theorem natAbs_signed (a : Decimal) : a.signed.natAbs = a.mantissa := by
  unfold signed
  split <;> omega

/-! ## fitting -/

theorem div_excess_lt (n : Nat) : n / 10 ^ excess n < limit := by
  fun_induction excess n with
  | case1 n h => rwa [Nat.pow_zero, Nat.div_one]
  | case2 n _ ih => rwa [Nat.pow_succ', ← Nat.div_div_eq_div_mul]

theorem excess_le_iff {n k : Nat} : excess n ≤ k ↔ n / 10 ^ k < limit := by
  constructor
  · intro h
    have hle : n / 10 ^ k ≤ n / 10 ^ excess n :=
      Nat.div_le_div_left (Nat.pow_le_pow_right (by decide) h) (Nat.pow_pos (by decide))
    exact Nat.lt_of_le_of_lt hle (div_excess_lt n)
  · intro h
    induction k generalizing n with
    | zero =>
      rw [Nat.pow_zero, Nat.div_one] at h
      have h0 : excess n = 0 := by rw [excess, if_pos h]
      exact Nat.le_of_eq h0
    | succ k ih =>
      rw [excess]
      split
      · exact Nat.zero_le _
      · refine Nat.succ_le_succ (ih ?_)
        rwa [Nat.div_div_eq_div_mul, ← Nat.pow_succ']

/-- a number that loses only zeros is not rounded -/
theorem fit_mul (negative : Bool) {m s : Nat} (hm : m < limit) (hs : s ≤ 28) (k : Nat) :
    ∃ c, fit negative (m * 10 ^ k) (s + k) = some c ∧
      c.mantissa * 10 ^ (s + k) = m * 10 ^ k * 10 ^ c.scale := by
  have hpos (j : Nat) : 0 < 10 ^ j := Nat.pow_pos (by decide)
  have hexcess : excess (m * 10 ^ k) ≤ k :=
    excess_le_iff.2 (by rwa [Nat.mul_div_cancel m (hpos k)])
  -- `cut` places go, and `j` zeros are kept
  obtain ⟨cut, j, hcut, rfl⟩ :
      ∃ cut j, max (excess (m * 10 ^ k)) (s + k - 28) = cut ∧ k = cut + j :=
    ⟨_, k - max (excess (m * 10 ^ k)) (s + k - 28), rfl, by omega⟩
  have hsplit : m * 10 ^ (cut + j) = m * 10 ^ j * 10 ^ cut := by
    rw [Nat.add_comm, Nat.pow_add, Nat.mul_assoc]
  have hlt : m * 10 ^ j < limit := by
    have hle : excess (m * 10 ^ (cut + j)) ≤ cut :=
      Nat.le_trans (Nat.le_max_left ..) (Nat.le_of_eq hcut)
    have h := excess_le_iff.1 hle
    rwa [hsplit, Nat.mul_div_cancel _ (hpos cut)] at h
  have hscale : s + (cut + j) - cut = s + j := by omega
  have h28 : s + j ≤ 28 := by omega
  refine ⟨⟨negative, m * 10 ^ j, s + j, hlt, h28⟩, ?_, ?_⟩
  · rw [fit, hcut, hscale, hsplit, divRound_mul _ (hpos cut)]
    simp only [if_pos hlt]
    rw [if_neg (by omega)]
    exact dif_pos ⟨hlt, h28⟩
  · show m * 10 ^ j * 10 ^ (s + (cut + j)) = m * 10 ^ (cut + j) * 10 ^ (s + j)
    rw [Nat.mul_assoc, Nat.mul_assoc, ← Nat.pow_add, ← Nat.pow_add]
    congr 2
    omega

theorem fit_eq_none (negative : Bool) {m s : Nat} (h : limit ≤ m / 10 ^ s) :
    fit negative m s = none := by
  have hs : s < excess m := Nat.not_le.1 fun hle => Nat.not_le.2 (excess_le_iff.1 hle) h
  rw [fit]
  exact if_pos (Nat.lt_of_lt_of_le hs (Nat.le_max_left ..))

theorem fit_negative {negative : Bool} {m s : Nat} {c : Decimal}
    (h : fit negative m s = some c) : c.negative = negative := by
  have hmake {m s : Nat} (h : make? negative m s = some c) : c.negative = negative := by
    unfold make? at h
    split at h
    · cases h
      rfl
    · cases h
  unfold fit at h
  dsimp only at h
  split at h
  · cases h
  · split at h
    · exact hmake h
    · split at h
      · cases h
      · exact hmake h

/-- the number of a decimal is not rounded, at whatever scale it is given -/
theorem fit_exact {d : Decimal} {m s : Nat} (h : d.mantissa * 10 ^ s = m * 10 ^ d.scale)
    (negative : Bool) :
    ∃ c, fit negative m s = some c ∧ c.mantissa * 10 ^ s = m * 10 ^ c.scale := by
  have hpos (j : Nat) : 0 < 10 ^ j := Nat.pow_pos (by decide)
  rcases Nat.le_total d.scale s with hle | hle
  · obtain ⟨k, rfl⟩ := Nat.exists_eq_add_of_le hle
    have hm : d.mantissa * 10 ^ k = m := by
      refine Nat.eq_of_mul_eq_mul_right (hpos d.scale) ?_
      rw [Nat.mul_assoc, ← Nat.pow_add, Nat.add_comm k, h]
    rw [← hm]
    exact fit_mul negative d.mantissa_lt d.scale_le k
  · obtain ⟨j, hj⟩ := Nat.exists_eq_add_of_le hle
    have hm : d.mantissa = m * 10 ^ j := by
      refine Nat.eq_of_mul_eq_mul_right (hpos s) ?_
      rw [h, hj, Nat.mul_assoc, ← Nat.pow_add, Nat.add_comm s]
    have hlt : m < limit :=
      Nat.lt_of_le_of_lt (hm ▸ Nat.le_mul_of_pos_right m (hpos j)) d.mantissa_lt
    have hs : s ≤ 28 := Nat.le_trans hle d.scale_le
    simpa using fit_mul negative hlt hs 0

theorem Denotes.natAbs_eq (h : a.Denotes n s) : a.mantissa * 10 ^ s = n.natAbs * 10 ^ a.scale := by
  have habs := congrArg Int.natAbs h
  rwa [Int.natAbs_mul, Int.natAbs_mul, natAbs_signed, Int.natAbs_pow, Int.natAbs_pow] at habs

theorem denotes_of_parts {negative : Bool} {m : Nat} (hn : a.negative = negative)
    (h : a.mantissa * 10 ^ s = m * 10 ^ a.scale) :
    a.Denotes (if negative then -(m : Int) else m) s := by
  have h' : (a.mantissa : Int) * 10 ^ s = m * 10 ^ a.scale := by exact_mod_cast h
  rw [Denotes, signed, hn]
  split
  · rw [Int.neg_mul, Int.neg_mul, h']
  · exact h'

theorem fit_denotes {d : Decimal} {m : Nat} (h : d.mantissa * 10 ^ s = m * 10 ^ d.scale)
    (negative : Bool) : ∃ c, fit negative m s = some c ∧
      c.Denotes (if negative then -(m : Int) else m) s := by
  obtain ⟨c, hc, hm⟩ := fit_exact h negative
  exact ⟨c, hc, denotes_of_parts (fit_negative hc) hm⟩

/-! ## sums and products -/

theorem add_exact {d : Decimal} (hs : max a.scale b.scale = s)
    (hn : a.alignedTo s + b.alignedTo s = n) (hd : d.Denotes n s) :
    ∃ c, a.add b = some c ∧ c.Denotes n s := by
  have halign {x : Decimal} (hx : x.isZero = true) : x.alignedTo s = 0 := by
    rw [alignedTo, signedAt, signed_eq_zero hx, Int.zero_mul]
  by_cases ha : a.isZero = true
  · refine ⟨b, if_pos ha, ?_⟩
    rw [← hn, halign ha, Int.zero_add]
    exact denotes_alignedTo (hs ▸ Nat.le_max_right ..)
  by_cases hb : b.isZero = true
  · refine ⟨a, (if_neg ha).trans (if_pos hb), ?_⟩
    rw [← hn, halign hb, Int.add_zero]
    exact denotes_alignedTo (hs ▸ Nat.le_max_left ..)
  rw [add, if_neg ha, if_neg hb, hs]
  dsimp only
  rw [hn]
  have hfit := fit_denotes hd.natAbs_eq (n < 0)
  rwa [signed_natAbs] at hfit

theorem add_denotes (hs : max a.scale b.scale = s) (hn : a.alignedTo s + b.alignedTo s = n)
    (hlt : n.natAbs < limit) : ∃ c, a.add b = some c ∧ c.Denotes n s := by
  have hs28 : s ≤ 28 := hs ▸ Nat.max_le.2 ⟨a.scale_le, b.scale_le⟩
  let d : Decimal := ⟨n < 0, n.natAbs, s, hlt, hs28⟩
  have hd : d.Denotes n s := congrArg (· * 10 ^ s) (signed_natAbs n)
  exact add_exact hs hn hd

/-- numbers of so many places are added exactly, as long as the sum is in range -/
theorem Denotes.add {m : Int} (hs : s ≤ 28) (ha : a.Denotes n s) (hb : b.Denotes m s)
    (hlt : (n + m).natAbs < limit) : ∃ c, a.add b = some c ∧ c.Denotes (n + m) s := by
  let d : Decimal := ⟨n + m < 0, (n + m).natAbs, s, hlt, hs⟩
  have hd : d.signed = n + m := signed_natAbs (n + m)
  have hsum : (a.alignedTo (max a.scale b.scale) + b.alignedTo (max a.scale b.scale)) * 10 ^ s =
      (n + m) * 10 ^ max a.scale b.scale := by
    rw [Int.add_mul, Int.add_mul, fraction_trans (denotes_alignedTo (Nat.le_max_left ..)).symm ha,
      fraction_trans (denotes_alignedTo (Nat.le_max_right ..)).symm hb]
  have hds : d.Denotes (a.alignedTo (max a.scale b.scale) + b.alignedTo (max a.scale b.scale))
      (max a.scale b.scale) := by
    rw [Denotes, hd]
    exact hsum.symm
  obtain ⟨c, hc, hcd⟩ := add_exact rfl rfl hds
  exact ⟨c, hc, fraction_trans hcd hsum⟩

theorem signed_plainZero (a : Decimal) : a.plainZero.signed = a.signed := by
  cases hz : a.isZero with
  | true =>
    have hp : a.plainZero.isZero = true := hz
    rw [signed_eq_zero hz, signed_eq_zero hp]
  | false => simp [plainZero, signed, hz]

theorem signed_mul {na nb : Bool} (m k : Nat) :
    (if na != nb then -((m * k : Nat) : Int) else (m * k : Nat)) =
      (if na then -(m : Int) else m) * (if nb then -(k : Int) else k) := by
  rw [Int.natCast_mul]
  cases na <;> cases nb
  · rfl
  · exact (Int.mul_neg ..).symm
  · exact (Int.neg_mul ..).symm
  · exact (Int.neg_mul_neg ..).symm

theorem mul_exact {d : Decimal} (hs : a.scale + b.scale ≤ 47)
    (hd : d.Denotes (a.signed * b.signed) (a.scale + b.scale)) :
    ∃ c, a.mul b = some c ∧ c.Denotes (a.signed * b.signed) (a.scale + b.scale) := by
  by_cases hz : (a.isZero || b.isZero) = true
  · refine ⟨zero, if_pos hz, ?_⟩
    have h0 : a.signed * b.signed = 0 := by
      rcases (Bool.or_eq_true ..).mp hz with h | h
      · rw [signed_eq_zero h, Int.zero_mul]
      · rw [signed_eq_zero h, Int.mul_zero]
    rw [h0]
    exact zero_denotes _
  have hm := hd.natAbs_eq
  rw [Int.natAbs_mul, natAbs_signed, natAbs_signed] at hm
  obtain ⟨c, hc, hcd⟩ := fit_denotes hm (a.negative != b.negative)
  have hsign : (if a.negative != b.negative then -((a.mantissa * b.mantissa : Nat) : Int)
      else (a.mantissa * b.mantissa : Nat)) = a.signed * b.signed := signed_mul ..
  rw [hsign] at hcd
  by_cases hsmall : a.mantissa < 4294967296 ∧ b.mantissa < 4294967296
  · refine ⟨c.plainZero, ?_, ?_⟩
    · rw [mul, if_neg hz, if_pos hsmall, if_neg (by omega), hc]
      rfl
    · rw [Denotes, signed_plainZero]
      exact hcd
  · refine ⟨c, ?_, hcd⟩
    rw [mul, if_neg hz, if_neg hsmall, hc]

theorem mul_denotes (hs : a.scale + b.scale ≤ 28) (hm : a.mantissa * b.mantissa < limit) :
    ∃ c, a.mul b = some c ∧ c.Denotes (a.signed * b.signed) (a.scale + b.scale) := by
  let d : Decimal := ⟨a.negative != b.negative, a.mantissa * b.mantissa, a.scale + b.scale, hm, hs⟩
  have hd : d.signed = a.signed * b.signed := signed_mul a.mantissa b.mantissa
  exact mul_exact (Nat.le_trans hs (by decide)) (congrArg (· * 10 ^ (a.scale + b.scale)) hd)

theorem mul_eq_none (hs : a.scale + b.scale ≤ 47)
    (h : limit ≤ a.mantissa * b.mantissa / 10 ^ (a.scale + b.scale)) : a.mul b = none := by
  have hz : (a.isZero || b.isZero) = false := by
    rw [Bool.or_eq_false_iff, isZero, isZero, beq_eq_false_iff_ne, beq_eq_false_iff_ne]
    constructor
    · intro h0
      rw [h0, Nat.zero_mul, Nat.zero_div] at h
      exact absurd limit_pos (Nat.not_lt.2 h)
    · intro h0
      rw [h0, Nat.mul_zero, Nat.zero_div] at h
      exact absurd limit_pos (Nat.not_lt.2 h)
  rw [mul, hz, fit_eq_none _ h, if_neg Bool.false_ne_true]
  split
  · exact if_neg (by omega)
  · rfl

/-! ## quotients and places -/

theorem div_one_denotes (a : Decimal) :
    ∃ c, a.div (.ofNat 1) = some c ∧ c.Denotes a.signed a.scale := by
  by_cases hz : a.isZero = true
  · refine ⟨zero, if_pos hz, ?_⟩
    rw [signed_eq_zero hz]
    exact zero_denotes _
  · refine ⟨a, ?_, rfl⟩
    have hfinish : Quotient.finish 1 ⟨a.mantissa / 1, a.mantissa % 1, a.scale⟩ false =
        some (a.mantissa, a.scale, false) := by
      rw [Quotient.finish, if_pos ⟨Nat.mod_one _, Int.natCast_nonneg a.scale⟩, Nat.div_one]
      rfl
    have hm : (a.mantissa != 0) = true := (bne_iff_ne ..).mpr fun h => hz (beq_iff_eq.2 h)
    rw [div, if_neg hz]
    show (Quotient.finish 1 ⟨a.mantissa / 1, a.mantissa % 1, a.scale⟩ false).bind _ = _
    rw [hfinish]
    show make? (a.negative != false && a.mantissa != 0) a.mantissa a.scale = some a
    rw [hm, Bool.and_true, Bool.bne_false]
    exact dif_pos ⟨a.mantissa_lt, a.scale_le⟩

theorem strip_mul (m s : Nat) : (strip m s).1 * 10 ^ s = m * 10 ^ (strip m s).2 := by
  induction s generalizing m with
  | zero => rfl
  | succ s ih =>
    rw [strip]
    split
    · next h =>
      rw [Nat.pow_succ, ← Nat.mul_assoc, ih, Nat.mul_right_comm,
        Nat.div_mul_cancel (Nat.dvd_of_mod_eq_zero h)]
    · rfl

theorem normalize_denotes (a : Decimal) : a.normalize.Denotes a.signed a.scale := by
  by_cases hz : a.isZero = true
  · rw [normalize, if_pos hz, signed_eq_zero hz]
    exact zero_denotes _
  · have h : ((strip a.mantissa a.scale).1 : Int) * 10 ^ a.scale =
        a.mantissa * 10 ^ (strip a.mantissa a.scale).2 := by
      exact_mod_cast strip_mul a.mantissa a.scale
    rw [normalize, if_neg hz]
    show (if a.negative then -((strip a.mantissa a.scale).1 : Int) else (strip ..).1) * 10 ^ a.scale =
      (if a.negative then -(a.mantissa : Int) else a.mantissa) * 10 ^ (strip ..).2
    split
    · rw [Int.neg_mul, Int.neg_mul, h]
    · exact h

end Decimal

end ExprLang
