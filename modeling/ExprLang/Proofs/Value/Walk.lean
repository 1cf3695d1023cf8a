import ExprLang.Value.Compare

/-!
# Walking through two values

Two sequences of one length are compared item by item, as far as the items are equal; the items are
seen through the normalizer again.  Any other two values are compared at once.

* `Comparison.andThen r p`   the result `r`, or `p` if `r` is "equal";
* `Comparer.Meets c as bs x y`     `x` and `y` stand at one place of two lists, behind equal items;
* `Comparer.Reaches c a b x y`     the walk through `a` and `b` comes to the values `x` and `y`;
* `Normalizer.walk_induct`   induction on two values by the items of their sequences;
* `Mirroring R`              a relation between results that a walk keeps, if the other result is
                             that of the walk with the operands exchanged.

Orders of `a`, `b` and of `b`, `a` are related if those of the values are at which the walk ends
(`Comparer.order_related`).
-/

namespace ExprLang

def Comparison.andThen (r p : Comparison) : Comparison :=
  match r with
  | .ok (some .eq) => p
  | decided => decided

theorem compareParts_cons (o : ComparerOptions) (v w : View) (vs ws : List View) :
    compareParts o (v :: vs) (w :: ws) = (v.compare o w).andThen (compareParts o vs ws) := by
  rw [compareParts.eq_def]
  rfl

theorem View.compare_eq_pairOrder (o : ComparerOptions) {v w : View}
    (h : ¬ (v.value.kind = .sequence ∧ w.value.kind = .sequence)) :
    v.compare o w = pairOrder o v.value w.value := by
  cases v with
  | leaf x => rfl
  | branch xs ps =>
    cases w with
    | leaf y => rfl
    | branch ys qs => exact absurd ⟨rfl, rfl⟩ h

theorem Value.eq_sequence {v : Value} (h : v.kind = .sequence) : ∃ items, v = .sequence items := by
  cases v <;> cases h
  exact ⟨_, rfl⟩

/-- by a measure in which items are smaller than what became their sequence -/
@[elab_as_elim]
theorem Normalizer.walk_induct {n : Normalizer} {motive : Value → Value → Prop}
    (sequences : ∀ a b xs ys, n.apply a = .sequence xs → n.apply b = .sequence ys →
      (∀ x ∈ xs, ∀ y, motive x y) → motive a b)
    (other : ∀ a b, ¬ ((n.apply a).kind = .sequence ∧ (n.apply b).kind = .sequence) → motive a b)
    (a b : Value) : motive a b := by
  obtain ⟨measure, hd⟩ := n.descends
  induction hs : measure a using Nat.strongRecOn generalizing a b with
  | ind k ih =>
    subst hs
    by_cases h : (n.apply a).kind = .sequence ∧ (n.apply b).kind = .sequence
    · obtain ⟨xs, hxs⟩ := Value.eq_sequence h.1
      obtain ⟨ys, hys⟩ := Value.eq_sequence h.2
      exact sequences a b xs ys hxs hys fun x hx y => ih _ (hd a xs hxs x hx) x y rfl
    · exact other a b h

namespace Comparer

inductive Meets (c : Comparer) : List Value → List Value → Value → Value → Prop where
  | head {x y : Value} {xs ys : List Value} : Meets c (x :: xs) (y :: ys) x y
  | tail {x y u v : Value} {xs ys : List Value} : c.order x y = .ok (some .eq) →
      Meets c xs ys u v → Meets c (x :: xs) (y :: ys) u v

inductive Reaches (c : Comparer) : Value → Value → Value → Value → Prop where
  | here {a b : Value} : Reaches c a b a b
  | items {a b x y u v : Value} {xs ys : List Value} : c.normalizer.apply a = .sequence xs →
      c.normalizer.apply b = .sequence ys → xs.length = ys.length → c.Meets xs ys x y →
      Reaches c x y u v → Reaches c a b u v

variable {c : Comparer} {a b : Value}

theorem Meets.mem_zip {xs ys : List Value} {x y : Value} (h : c.Meets xs ys x y) :
    (x, y) ∈ xs.zip ys := by
  induction h with
  | head => exact List.mem_cons_self ..
  | tail _ _ ih => exact List.mem_cons_of_mem _ ih

theorem order_of_sequences {xs ys : List Value} (hxs : c.normalizer.apply a = .sequence xs)
    (hys : c.normalizer.apply b = .sequence ys) :
    c.order a b =
      if xs.length = ys.length then
        compareParts c.options (xs.map c.normalizer.view) (ys.map c.normalizer.view)
      else .ok (some (Ord.compare xs.length ys.length)) := by
  rw [order, Normalizer.view_of_sequence hxs, Normalizer.view_of_sequence hys, View.compare,
    List.length_map, List.length_map]

theorem order_of_other
    (h : ¬ ((c.normalizer.apply a).kind = .sequence ∧ (c.normalizer.apply b).kind = .sequence)) :
    c.order a b = pairOrder c.options (c.normalizer.apply a) (c.normalizer.apply b) := by
  rw [← Normalizer.value_view, ← Normalizer.value_view] at h
  rw [order, View.compare_eq_pairOrder _ h, Normalizer.value_view, Normalizer.value_view]

/-- two values that the normalizer leaves as they are -/
theorem order_of_kept (ha : c.normalizer.apply a = a) (hb : c.normalizer.apply b = b)
    (h : ¬ (a.kind = .sequence ∧ b.kind = .sequence)) : c.order a b = pairOrder c.options a b := by
  rw [order_of_other (by rwa [ha, hb]), ha, hb]

/-- the order of two lists of items, as far as it is that of the first ones -/
theorem compareParts_views_cons (x y : Value) (xs ys : List Value) :
    compareParts c.options ((x :: xs).map c.normalizer.view) ((y :: ys).map c.normalizer.view) =
      (c.order x y).andThen
        (compareParts c.options (xs.map c.normalizer.view) (ys.map c.normalizer.view)) :=
  compareParts_cons ..

end Comparer

/-! ## with the operands exchanged -/

structure Mirroring (R : Comparison → Comparison → Prop) : Prop where
  equal : R (.ok (some .eq)) (.ok (some .eq))
  lengths : ∀ m n : Nat, R (.ok (some (compare m n))) (.ok (some (compare n m)))
  andThen : ∀ {r s p q : Comparison}, R r s → (r = .ok (some .eq) → R p q) →
    R (r.andThen p) (s.andThen q)

namespace Comparer

variable {c : Comparer} {R : Comparison → Comparison → Prop} (hR : Mirroring R)
include hR

theorem compareParts_related {xs ys : List Value} (hl : xs.length = ys.length)
    (h : ∀ x y, c.Meets xs ys x y → R (c.order x y) (c.order y x)) :
    R (compareParts c.options (xs.map c.normalizer.view) (ys.map c.normalizer.view))
      (compareParts c.options (ys.map c.normalizer.view) (xs.map c.normalizer.view)) := by
  induction xs generalizing ys with
  | nil =>
    cases ys with
    | nil => exact hR.equal
    | cons y ys => cases hl
  | cons x xs ih =>
    cases ys with
    | nil => cases hl
    | cons y ys =>
      rw [compareParts_views_cons, compareParts_views_cons]
      refine hR.andThen (h x y .head) fun hxy => ?_
      exact ih (Nat.succ.inj hl) fun u v hm => h u v (.tail hxy hm)

theorem order_related {P : Value → Value → Prop}
    (items : ∀ {a b x y xs ys}, P a b → c.normalizer.apply a = .sequence xs →
      c.normalizer.apply b = .sequence ys → xs.length = ys.length → c.Meets xs ys x y → P x y)
    (other : ∀ {a b}, P a b → R (pairOrder c.options (c.normalizer.apply a) (c.normalizer.apply b))
      (pairOrder c.options (c.normalizer.apply b) (c.normalizer.apply a)))
    {a b : Value} (hab : P a b) : R (c.order a b) (c.order b a) := by
  induction a, b using c.normalizer.walk_induct with
  | sequences a b xs ys hxs hys ih =>
    rw [order_of_sequences hxs hys, order_of_sequences hys hxs]
    by_cases hl : xs.length = ys.length
    · rw [if_pos hl, if_pos hl.symm]
      refine compareParts_related hR hl fun x y hm => ?_
      exact ih x (List.of_mem_zip hm.mem_zip).1 y (items hab hxs hys hl hm)
    · rw [if_neg hl, if_neg (Ne.symm hl)]
      exact hR.lengths ..
  | other a b h =>
    rw [order_of_other h, order_of_other fun h' => h h'.symm]
    exact other hab

end Comparer

end ExprLang
