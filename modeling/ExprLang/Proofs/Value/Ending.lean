import ExprLang.Proofs.Value.Walk

/-!
# Where a walk through two values ends

* `View.walk`, `Comparer.walk c a b`   the pairs of values that are compared on the way through `a`
                                       and `b`: the two values themselves or, of two sequences of
                                       one length, the walks through their items, up to the first
                                       ones that are not equal;
* `Comparer.EndsAt c a b x y`          the last pair of that walk is `x` and `y`;
* `endOrder`                           the order of the pair at which a walk ends.

The order of two values is that of the pair at which their walk ends: `Comparer.order_eq_endOrder`.
-/

namespace ExprLang

open Value

/-! ## walks -/

mutual

/-- the pairs of values that are compared on the way through two views -/
def View.walk (o : ComparerOptions) : View → View → List (Value × Value)
  | .branch items as, .branch items' bs =>
    if as.length = bs.length then walkParts o as bs else [(.sequence items, .sequence items')]
  | .branch items _, b => [(.sequence items, b.value)]
  | .leaf v, b => [(v, b.value)]

/-- the walks through the parts, as far as they are equal -/
def walkParts (o : ComparerOptions) : List View → List View → List (Value × Value)
  | a :: as, b :: bs =>
    View.walk o a b ++
      match View.compare o a b with
      | .ok (some .eq) => walkParts o as bs
      | _ => []
  | _, _ => []

end

theorem View.walk_eq_singleton (o : ComparerOptions) {v w : View}
    (h : ¬ (v.value.kind = .sequence ∧ w.value.kind = .sequence)) :
    v.walk o w = [(v.value, w.value)] := by
  cases v with
  | leaf x => rfl
  | branch xs ps =>
    cases w with
    | leaf y => rfl
    | branch ys qs => exact absurd ⟨rfl, rfl⟩ h

namespace Comparer

def walk (c : Comparer) (a b : Value) : List (Value × Value) :=
  (c.normalizer.view a).walk c.options (c.normalizer.view b)

def walkItems (c : Comparer) (xs ys : List Value) : List (Value × Value) :=
  walkParts c.options (xs.map c.normalizer.view) (ys.map c.normalizer.view)

def EndsAt (c : Comparer) (a b x y : Value) : Prop := (c.walk a b).getLast? = some (x, y)

variable {c : Comparer} {a b : Value}

section
variable {xs ys : List Value} (hxs : c.normalizer.apply a = .sequence xs)
  (hys : c.normalizer.apply b = .sequence ys)
include hxs hys

theorem walk_of_items (hl : xs.length = ys.length) : c.walk a b = c.walkItems xs ys := by
  rw [walk, Normalizer.view_of_sequence hxs, Normalizer.view_of_sequence hys, View.walk,
    List.length_map, List.length_map, if_pos hl]
  rfl

theorem walk_of_lengths (hl : xs.length ≠ ys.length) :
    c.walk a b = [(.sequence xs, .sequence ys)] := by
  rw [walk, Normalizer.view_of_sequence hxs, Normalizer.view_of_sequence hys, View.walk,
    List.length_map, List.length_map, if_neg hl]

end

theorem walk_of_other
    (h : ¬ ((c.normalizer.apply a).kind = .sequence ∧ (c.normalizer.apply b).kind = .sequence)) :
    c.walk a b = [(c.normalizer.apply a, c.normalizer.apply b)] := by
  rw [← Normalizer.value_view, ← Normalizer.value_view] at h
  rw [walk, View.walk_eq_singleton _ h, Normalizer.value_view, Normalizer.value_view]

theorem walkItems_equal {x y : Value} (xs ys : List Value) (h : c.order x y = .ok (some .eq)) :
    c.walkItems (x :: xs) (y :: ys) = c.walk x y ++ c.walkItems xs ys := by
  show c.walk x y ++ (match c.order x y with
    | .ok (some .eq) => c.walkItems xs ys
    | _ => []) = _
  rw [h]

theorem walkItems_decided {x y : Value} (xs ys : List Value) (h : c.order x y ≠ .ok (some .eq)) :
    c.walkItems (x :: xs) (y :: ys) = c.walk x y := by
  show c.walk x y ++ (match c.order x y with
    | .ok (some .eq) => c.walkItems xs ys
    | _ => []) = _
  split
  · next heq => exact absurd heq h
  · rw [List.append_nil]

end Comparer

/-! ## the end of a walk decides -/

/-- the order at the end of a walk: by length for two sequences, "equal" if nothing is compared -/
def endOrder (o : ComparerOptions) : Option (Value × Value) → Comparison
  | none => .ok (some .eq)
  | some (.sequence xs, .sequence ys) => .ok (some (compare xs.length ys.length))
  | some (x, y) => pairOrder o x y

theorem endOrder_of_other (o : ComparerOptions) {x y : Value}
    (h : ¬ (x.kind = .sequence ∧ y.kind = .sequence)) :
    endOrder o (some (x, y)) = pairOrder o x y := by
  unfold endOrder
  split
  · next heq => cases heq
  · next heq =>
    cases heq
    exact absurd ⟨rfl, rfl⟩ h
  · next heq =>
    cases heq
    rfl

namespace Comparer

variable {c : Comparer}

theorem compareParts_eq_endOrder {xs ys : List Value} (hl : xs.length = ys.length)
    (h : ∀ x ∈ xs, ∀ y, c.order x y = endOrder c.options (c.walk x y).getLast?) :
    compareParts c.options (xs.map c.normalizer.view) (ys.map c.normalizer.view) =
      endOrder c.options (c.walkItems xs ys).getLast? := by
  induction xs generalizing ys with
  | nil =>
    cases ys with
    | nil => rfl
    | cons y ys => cases hl
  | cons x xs ih =>
    cases ys with
    | nil => cases hl
    | cons y ys =>
      rw [List.forall_mem_cons] at h
      have hfirst := h.1 y
      have hrest := ih (Nat.succ.inj hl) h.2
      rw [compareParts_views_cons]
      by_cases heq : c.order x y = .ok (some .eq)
      · rw [walkItems_equal xs ys heq, heq, List.getLast?_append]
        show compareParts _ _ _ = _
        rw [hrest]
        cases hlast : (c.walkItems xs ys).getLast? with
        | some p => rfl
        | none =>
          -- nothing is compared behind the first items, which are equal
          rw [Option.none_or, ← hfirst, heq]
          rfl
      · rw [walkItems_decided xs ys heq, ← hfirst, Comparison.andThen]
        exact heq

theorem order_eq_endOrder (a b : Value) :
    c.order a b = endOrder c.options (c.walk a b).getLast? := by
  induction a, b using c.normalizer.walk_induct with
  | sequences a b xs ys hxs hys ih =>
    rw [order_of_sequences hxs hys]
    by_cases hl : xs.length = ys.length
    · rw [if_pos hl, walk_of_items hxs hys hl]
      exact compareParts_eq_endOrder hl ih
    · rw [if_neg hl, walk_of_lengths hxs hys hl]
      rfl
  | other a b h =>
    rw [order_of_other h, walk_of_other h]
    exact (endOrder_of_other _ h).symm

end Comparer

end ExprLang
