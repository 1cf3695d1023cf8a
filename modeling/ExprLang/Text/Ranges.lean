/-!
# Sorted ranges of code points

A class of characters is kept as an ascending list of inclusive ranges `(first, last)`.

* `inRanges rs n`   is `n` inside one of the ranges of `rs`;
* `inRanges_sound`  a hit lies in a listed range.
-/

namespace ExprLang.Text

def inRanges : List (Nat × Nat) → Nat → Bool
  | [], _ => false
  | (first, last) :: rs, n => if n < first then false else if n ≤ last then true else inRanges rs n

theorem inRanges_nil (n : Nat) : inRanges [] n = false := rfl

theorem inRanges_cons (first last : Nat) (rs : List (Nat × Nat)) (n : Nat) :
    inRanges ((first, last) :: rs) n =
      if n < first then false else if n ≤ last then true else inRanges rs n := rfl

theorem inRanges_sound {rs : List (Nat × Nat)} {n : Nat} (h : inRanges rs n = true) :
    ∃ r ∈ rs, r.1 ≤ n ∧ n ≤ r.2 := by
  induction rs with
  | nil => simp [inRanges_nil] at h
  | cons r rs ih =>
    obtain ⟨first, last⟩ := r
    rw [inRanges_cons] at h
    split at h
    · cases h
    · split at h
      · exact ⟨(first, last), List.mem_cons_self, by omega, by omega⟩
      · obtain ⟨q, hq, hn⟩ := ih h
        exact ⟨q, List.mem_cons_of_mem _ hq, hn⟩

end ExprLang.Text
