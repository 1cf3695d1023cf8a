import ExprLang.Text.Digits

/-!
# How many digits a number has

`length_digits_le_iff`: a number has at most `k` digits, `k` not zero, just if it is below `10^k`.
So a larger number has no fewer digits (`length_digits_mono`), and the next number has a digit more
just if it is a power of ten (`length_digits_succ`, `length_digits_pow`).
-/

namespace ExprLang.Text

variable {n m k : Nat}

theorem length_digits_le_iff : (digits n).length ≤ k + 1 ↔ n < 10 ^ (k + 1) := by
  induction k generalizing n with
  | zero =>
    by_cases hn : n < 10
    · rw [digits_of_lt hn]
      exact iff_of_true (Nat.le_refl 1) hn
    · have hpos := List.length_pos_iff.2 (digits_ne_nil (n / 10))
      rw [digits_of_ge (by omega), List.length_append, List.length_singleton]
      exact iff_of_false (by omega) hn
  | succ k ih =>
    by_cases hn : n < 10
    · rw [digits_of_lt hn]
      refine iff_of_true (Nat.succ_le_succ (Nat.zero_le _)) (Nat.lt_of_lt_of_le hn ?_)
      exact Nat.le_pow (Nat.succ_pos _)
    · rw [digits_of_ge (by omega), List.length_append, List.length_singleton,
        Nat.add_le_add_iff_right, ih, Nat.div_lt_iff_lt_mul (by decide), ← Nat.pow_succ]

theorem exists_length_digits (n : Nat) : ∃ k, (digits n).length = k + 1 ∧ n < 10 ^ (k + 1) := by
  have hpos := List.length_pos_iff.2 (digits_ne_nil n)
  obtain ⟨k, hk⟩ := Nat.exists_eq_succ_of_ne_zero (Nat.ne_of_gt hpos)
  exact ⟨k, hk, length_digits_le_iff.1 (Nat.le_of_eq hk)⟩

theorem length_digits_mono (h : m ≤ n) : (digits m).length ≤ (digits n).length := by
  obtain ⟨k, hk, hn⟩ := exists_length_digits n
  rw [hk]
  exact length_digits_le_iff.2 (Nat.lt_of_le_of_lt h hn)

theorem length_digits_succ (h : ∀ k : Nat, n + 1 ≠ 10 ^ (k + 1)) :
    (digits (n + 1)).length = (digits n).length := by
  obtain ⟨k, hk, hn⟩ := exists_length_digits n
  refine Nat.le_antisymm ?_ (length_digits_mono (Nat.le_succ n))
  rw [hk]
  exact length_digits_le_iff.2 (Nat.lt_of_le_of_ne hn (h k))

theorem length_digits_pow (h : n + 1 = 10 ^ (k + 1)) :
    (digits (n + 1)).length = (digits n).length + 1 := by
  obtain ⟨j, hj, hn⟩ := exists_length_digits n
  have hle : (digits n).length ≤ k + 1 := length_digits_le_iff.2 (by omega)
  have hlow : ¬ (digits (n + 1)).length ≤ k + 1 := by
    rw [length_digits_le_iff]
    omega
  have hup : (digits (n + 1)).length ≤ j + 2 := by
    rw [length_digits_le_iff, Nat.pow_succ]
    omega
  omega

theorem length_padLeft (width : Nat) (fill : Char) (cs : List Char) :
    (padLeft width fill cs).length = max width cs.length := by
  rw [padLeft, List.length_append, List.length_replicate]
  omega

end ExprLang.Text
