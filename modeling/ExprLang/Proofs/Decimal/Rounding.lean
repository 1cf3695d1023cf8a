import ExprLang.Proofs.Decimal.Exact

/-!
# Rounding to whole numbers

* `NearestEven n d k`   `k` is the whole number nearest to `n / d`, and of two nearest ones the even
                        one.

Which number is the nearest depends on the fraction alone (`NearestEven.congr`), a whole number is
its own (`NearestEven.eq_of_whole`), and `Decimal.round` finds it (`Denotes.round`).
-/

namespace ExprLang

def NearestEven (n : Int) (d : Nat) (k : Int) : Prop :=
  2 * (k * d - n).natAbs < d ∨ (2 * (k * d - n).natAbs = d ∧ k % 2 = 0)

theorem nearestEven_divRound (n : Nat) {d : Nat} (hd : 0 < d) : NearestEven n d (divRound n d) := by
  have hn : (n : Int) = (n / d : Nat) * d + (n % d : Nat) := by
    exact_mod_cast (Nat.div_add_mod' n d).symm
  have hr := Nat.mod_lt n hd
  unfold divRound
  dsimp only
  generalize n / d = q at hn ⊢
  generalize n % d = r at hn hr ⊢
  split
  · -- the next number is `d - r` away
    have hdist : ((q + 1 : Nat) : Int) * d - n = d - r := by
      rw [hn, Int.natCast_succ, Int.add_mul, Int.one_mul]
      omega
    rw [NearestEven, hdist]
    omega
  · have hdist : (q : Int) * d - n = -r := by
      rw [hn]
      omega
    rw [NearestEven, hdist]
    omega

namespace NearestEven

variable {n m k : Int} {d e : Nat}

theorem neg (h : NearestEven n d k) : NearestEven (-n) d (-k) := by
  have hdist : (-k * d - -n).natAbs = (k * d - n).natAbs := by
    rw [Int.neg_mul, ← Int.natAbs_neg]
    congr 1
    omega
  rw [NearestEven, hdist]
  unfold NearestEven at h
  omega

theorem congr (hd : 0 < d) (he : 0 < e) (h : n * e = m * d) (hk : NearestEven n d k) :
    NearestEven m e k := by
  have hdist : (k * e - m).natAbs * d = (k * d - n).natAbs * e := by
    have hz : (k * e - m) * d = (k * d - n) * e := by
      rw [Int.sub_mul, Int.sub_mul, h, Int.mul_right_comm]
    have habs := congrArg Int.natAbs hz
    rwa [Int.natAbs_mul, Int.natAbs_mul, Int.natAbs_natCast, Int.natAbs_natCast] at habs
  have hscaled : 2 * (k * e - m).natAbs * d = 2 * (k * d - n).natAbs * e := by
    rw [Nat.mul_assoc, hdist, Nat.mul_assoc]
  rcases hk with hlt | ⟨heq, heven⟩
  · refine .inl (Nat.lt_of_mul_lt_mul_right (a := d) ?_)
    rw [hscaled, Nat.mul_comm e]
    exact Nat.mul_lt_mul_of_pos_right hlt he
  · refine .inr ⟨Nat.eq_of_mul_eq_mul_right hd ?_, heven⟩
    rw [hscaled, heq, Nat.mul_comm]

theorem eq_of_whole (hd : 0 < d) (h : NearestEven (m * d) d k) : k = m := by
  have hdist : (k * d - m * d).natAbs = (k - m).natAbs * d := by
    rw [← Int.sub_mul, Int.natAbs_mul, Int.natAbs_natCast]
  rw [NearestEven, hdist] at h
  have hlt : (k - m).natAbs * d < 1 * d := by omega
  have hzero := Nat.lt_of_mul_lt_mul_right hlt
  omega

end NearestEven

namespace Decimal

theorem round_nearest (a : Decimal) : NearestEven a.signed (10 ^ a.scale : Nat) a.round := by
  have h := nearestEven_divRound a.mantissa (Nat.pow_pos (n := a.scale) (by decide : 0 < 10))
  unfold round signed
  dsimp only
  split
  · exact h.neg
  · exact h

theorem Denotes.round {a : Decimal} {n : Int} {s : Nat} (h : a.Denotes n s) :
    NearestEven n (10 ^ s : Nat) a.round := by
  have hpos (j : Nat) : 0 < 10 ^ j := Nat.pow_pos (by decide)
  refine a.round_nearest.congr (hpos _) (hpos _) ?_
  rw [Int.natCast_pow, Int.natCast_pow]
  exact h

end Decimal

end ExprLang
