import ExprLang.Text.Search

/-!
# Where a text occurs, and what replaces it

* `Text.find?_eq_none`, `find?_eq_some`   the search finds the least position at which the pattern
                                          starts the rest of the text;
* `Text.replace_of_absent`                a text without the pattern is kept;
* `Text.replace_of_found`                 and otherwise the first occurrence is replaced, and the
                                          replacing goes on behind it;
* `Text.replace_self`                     a pattern in its own place changes nothing.

`replaceFrom` walks over the text one character at a time and skips the characters of an occurrence,
so all facts about it are by induction on the text, for every number of characters still to skip.
-/

namespace ExprLang.Text

variable {p t s : List Char} {r : Nat}

/-! ## searching -/

theorem find?_eq_none (h : find? p s = none) (j : Nat) : p.isPrefixOf (s.drop j) = false := by
  induction s generalizing j with
  | nil =>
    rw [find?_nil] at h
    cases p with
    | nil => cases h
    | cons a p =>
      rw [List.drop_nil]
      rfl
  | cons a s ih =>
    rw [find?_cons] at h
    cases hp : p.isPrefixOf (a :: s) with
    | true =>
      rw [hp, if_pos rfl] at h
      cases h
    | false =>
      rw [hp, if_neg Bool.false_ne_true, Option.map_eq_none_iff] at h
      cases j with
      | zero => exact hp
      | succ j => exact ih h j

theorem find?_eq_some (h : find? p s = some r) :
    p.isPrefixOf (s.drop r) = true ∧ ∀ j < r, p.isPrefixOf (s.drop j) = false := by
  induction s generalizing r with
  | nil =>
    rw [find?_nil] at h
    cases p with
    | nil =>
      cases h
      exact ⟨rfl, nofun⟩
    | cons a p => cases h
  | cons a s ih =>
    rw [find?_cons] at h
    cases hp : p.isPrefixOf (a :: s) with
    | true =>
      rw [hp, if_pos rfl] at h
      cases h
      exact ⟨hp, nofun⟩
    | false =>
      rw [hp, if_neg Bool.false_ne_true, Option.map_eq_some_iff] at h
      obtain ⟨i, hi, rfl⟩ := h
      refine ⟨(ih hi).1, fun j hj => ?_⟩
      cases j with
      | zero => exact hp
      | succ j => exact (ih hi).2 j (Nat.lt_of_succ_lt_succ hj)

/-- what is found stands within the text -/
theorem find?_le (h : find? p s = some r) : r + p.length ≤ s.length := by
  have hp := (List.isPrefixOf_iff_prefix.1 (find?_eq_some h).1).length_le
  rw [List.length_drop] at hp
  have hr : r ≤ s.length := by
    refine Nat.not_lt.1 fun hlt => ?_
    -- only the empty pattern occurs at the end, and that one occurs at the start
    obtain rfl : p = [] := List.eq_nil_of_length_eq_zero (by omega)
    have h0 : true = false := (find?_eq_some h).2 0 (by omega)
    cases h0
  omega

/-- a pattern that stands in a text is found there -/
theorem find?_ne_none (h : p <:+: s) : find? p s ≠ none := by
  obtain ⟨a, b, rfl⟩ := h
  intro hnone
  have hp := find?_eq_none hnone a.length
  rw [List.append_assoc, List.drop_left] at hp
  exact Bool.eq_false_iff.1 hp (List.isPrefixOf_iff_prefix.2 (List.prefix_append p b))

theorem isPrefixOf_iff_find? : p.isPrefixOf s = true ↔ find? p s = some 0 := by
  constructor
  · intro hp
    cases s with
    | nil =>
      rw [List.prefix_nil.1 (List.isPrefixOf_iff_prefix.1 hp)]
      rfl
    | cons a s => rw [find?_cons, if_pos hp]
  · intro h
    exact (find?_eq_some h).1

/-- the end of a text is the rest from the position that leaves as many characters -/
theorem isSuffixOf_iff : p.isSuffixOf s = true ↔
    p.length ≤ s.length ∧ s.drop (s.length - p.length) = p := by
  rw [List.isSuffixOf_iff_suffix, List.suffix_iff_eq_drop]
  constructor
  · intro h
    refine ⟨?_, h.symm⟩
    rw [h, List.length_drop]
    omega
  · rintro ⟨-, h⟩
    exact h.symm

/-! ## replacing -/

theorem isPrefixOf_cons_drop {a : Char} (hp : p ≠ []) (h : p.isPrefixOf (a :: s) = true) :
    p ++ s.drop (p.length - 1) = a :: s := by
  obtain ⟨rest, hrest⟩ := List.isPrefixOf_iff_prefix.1 h
  cases p with
  | nil => exact absurd rfl hp
  | cons b p =>
    obtain ⟨rfl, rfl⟩ := List.cons.inj hrest
    rw [List.length_cons, Nat.add_sub_cancel]
    exact congrArg ((b :: p) ++ ·) List.drop_left

theorem replaceFrom_of_absent (h : find? p s = none) : replaceFrom p t 0 s = s := by
  induction s with
  | nil => rfl
  | cons a s ih =>
    have hp : p.isPrefixOf (a :: s) = false := find?_eq_none h 0
    rw [find?_cons, if_neg (Bool.eq_false_iff.1 hp), Option.map_eq_none_iff] at h
    rw [replaceFrom_zero, if_neg (Bool.eq_false_iff.1 hp), ih h]

theorem replaceFrom_of_found (hp : p ≠ []) (h : find? p s = some r) :
    replaceFrom p t 0 s = s.take r ++ t ++ replaceFrom p t 0 (s.drop (r + p.length)) := by
  induction s generalizing r with
  | nil =>
    rw [find?_nil, if_neg (by rwa [List.isEmpty_iff])] at h
    cases h
  | cons a s ih =>
    rw [find?_cons] at h
    cases hstart : p.isPrefixOf (a :: s) with
    | true =>
      rw [hstart, if_pos rfl] at h
      cases h
      obtain ⟨b, p, rfl⟩ := List.exists_cons_of_ne_nil hp
      rw [replaceFrom_zero, if_pos hstart, replaceFrom_eq_drop, Nat.zero_add]
      rfl
    | false =>
      rw [hstart, if_neg Bool.false_ne_true, Option.map_eq_some_iff] at h
      obtain ⟨i, hi, rfl⟩ := h
      rw [replaceFrom_zero, if_neg (Bool.eq_false_iff.1 hstart), ih hi, Nat.succ_add,
        List.drop_succ_cons]
      rfl

/-- with `skip` characters of an occurrence still to come -/
theorem replaceFrom_self (hp : p ≠ []) (skip : Nat) : replaceFrom p p skip s = s.drop skip := by
  induction s generalizing skip with
  | nil => rw [replaceFrom_nil, List.drop_nil]
  | cons a s ih =>
    cases skip with
    | succ skip => rw [replaceFrom_succ, ih, List.drop_succ_cons]
    | zero =>
      rw [replaceFrom_zero, ih, ih]
      split
      · next hstart => exact isPrefixOf_cons_drop hp hstart
      · rfl

theorem replace_eq (hp : p ≠ []) (t s : List Char) : replace p t s = replaceFrom p t 0 s :=
  if_neg (by rwa [List.isEmpty_iff])

theorem replace_of_absent (hp : p ≠ []) (h : find? p s = none) : replace p t s = s := by
  rw [replace_eq hp, replaceFrom_of_absent h]

theorem replace_of_found (hp : p ≠ []) (h : find? p s = some r) :
    replace p t s = s.take r ++ t ++ replace p t (s.drop (r + p.length)) := by
  rw [replace_eq hp, replace_eq hp, replaceFrom_of_found hp h]

theorem replace_self (hp : p ≠ []) (s : List Char) : replace p p s = s := by
  rw [replace_eq hp, replaceFrom_self hp, List.drop_zero]

end ExprLang.Text
