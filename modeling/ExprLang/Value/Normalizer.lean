import ExprLang.Value.Basic

/-!
# Normalizers and views

A normalizer maps a value to the plain value it stands for; the host uses one to see through its own
objects.  The view of a value is what a comparison sees of it: the value is normalized, and if it is
then a sequence, so are its items, and so on.

* `Normalizer`             a map under which this comes to an end;
* `Normalizer.identity`    changes nothing;
* `Normalizer.unwrapping`  maps a host object that holds a value to that value;
* `View`, `Normalizer.view`
-/

namespace ExprLang

/-- a map from values to the plain values they stand for, under which the items of a sequence are
smaller, in some measure, than the value that became the sequence -/
structure Normalizer where
  apply : Value → Value
  descends : ∃ measure : Value → Nat, ∀ v items, apply v = .sequence items →
    ∀ x ∈ items, measure x < measure v

/-- the plain value of a host object that wraps one, any other value as it is -/
def Value.unwrap : Value → Value
  | .hostObject _ (some v) => v
  | v => v

theorem Value.sizeOf_lt_of_mem_items {items : List Value} {x : Value} (h : x ∈ items) :
    sizeOf x < sizeOf (Value.sequence items) := by
  have := List.sizeOf_lt_of_mem h
  simp only [Value.sequence.sizeOf_spec]
  omega

theorem Value.sizeOf_unwrap_le (v : Value) : sizeOf v.unwrap ≤ sizeOf v := by
  unfold Value.unwrap
  split
  · simp only [Value.hostObject.sizeOf_spec, Option.some.sizeOf_spec]
    omega
  · exact Nat.le_refl _

namespace Normalizer

def identity : Normalizer where
  apply v := v
  descends := ⟨sizeOf, fun v items h x hx => by
    rw [h]
    exact Value.sizeOf_lt_of_mem_items hx⟩

def unwrapping : Normalizer where
  apply := Value.unwrap
  descends := ⟨sizeOf, fun v items h x hx => by
    have h1 := Value.sizeOf_lt_of_mem_items hx
    have h2 := Value.sizeOf_unwrap_le v
    rw [h] at h2
    omega⟩

theorem unwrapping_of_plain {v : Value} (h : v.kind.isHost = false) : unwrapping.apply v = v := by
  show v.unwrap = v
  unfold Value.unwrap
  split
  · cases h
  · rfl

end Normalizer

/-! ## views -/

/-- what a comparison sees of a value -/
inductive View where
  /-- a value that is no sequence -/
  | leaf (v : Value)
  /-- a sequence of these items, with the views of the items -/
  | branch (items : List Value) (parts : List View)

/-- the normalized value itself -/
def View.value : View → Value
  | .leaf v => v
  | .branch items _ => .sequence items

/-- the view of a value through a normalizer -/
def Normalizer.view (n : Normalizer) (v : Value) : View :=
  match h : n.apply v with
  | .sequence items =>
    .branch items (items.attach.map fun x =>
      have := n.descends.choose_spec v items h x.1 x.2
      n.view x.1)
  | w => .leaf w
termination_by n.descends.choose v

theorem Normalizer.view_of_sequence {n : Normalizer} {v : Value} {items : List Value}
    (h : n.apply v = .sequence items) : n.view v = .branch items (items.map n.view) := by
  rw [Normalizer.view]
  split
  · next items' h' =>
    rw [h] at h'
    cases h'
    simp
  · next hne =>
    exact absurd h (hne items)

theorem Normalizer.view_of_other {n : Normalizer} {v : Value}
    (h : ∀ items, n.apply v ≠ .sequence items) : n.view v = .leaf (n.apply v) := by
  rw [Normalizer.view]
  split
  · next items h' => exact absurd h' (h items)
  · rfl

theorem Normalizer.value_view (n : Normalizer) (v : Value) : (n.view v).value = n.apply v := by
  by_cases h : ∃ items, n.apply v = .sequence items
  · obtain ⟨items, h⟩ := h
    rw [view_of_sequence h, h]
    rfl
  · rw [view_of_other fun items hi => h ⟨items, hi⟩]
    rfl

end ExprLang
