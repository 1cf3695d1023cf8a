import ExprLang.Proofs.Value.Refinement

/-!
# Exact equality of sequences

Exact equality sees through the normalizer once.  What an item of a sequence stands for it does not
look at: two sequences are exactly equal if their items are structurally equal as they stand
(`exactEquals_sequence`).  So items that are exactly equal one by one need not make the sequences
exactly equal, while they make them loosely equal: `exactEquals_boxed_item`.
-/

namespace ExprLang

open Value

theorem sameItems_iff {xs ys : List Value} :
    sameItems xs ys = true ↔ xs.length = ys.length ∧ ∀ p ∈ xs.zip ys, p.1.same p.2 = true := by
  refine ⟨fun h => (Comparer.zip_of_sameItems h).imp_right fun hz p => hz p.1 p.2, fun hitems => ?_⟩
  obtain ⟨hl, h⟩ := hitems
  induction xs generalizing ys with
  | nil =>
    cases ys with
    | nil => rfl
    | cons y ys => cases hl
  | cons x xs ih =>
    cases ys with
    | nil => cases hl
    | cons y ys =>
      rw [List.zip_cons_cons, List.forall_mem_cons] at h
      rw [sameItems, Bool.and_eq_true]
      exact ⟨h.1, ih (Nat.succ.inj hl) h.2⟩

namespace Comparer

/-- are the lists of one length, with exactly equal items -/
def ExactItems (c : Comparer) (xs ys : List Value) : Prop :=
  xs.length = ys.length ∧ ∀ p ∈ xs.zip ys, c.exactEquals p.1 p.2 = true

variable {c : Comparer} {xs ys : List Value}

theorem exactEquals_eq_sameItems (hn : c.normalizer.Unwraps) (xs ys : List Value) :
    c.exactEquals (.sequence xs) (.sequence ys) = sameItems xs ys := by
  have plain (items : List Value) : c.normalizer.apply (.sequence items) = .sequence items :=
    hn.apply_of_plain nofun
  rw [exactEquals, plain, plain]
  rfl

/-- one host object stands for one value -/
theorem exactItems_of_sameItems (hn : c.normalizer.Unwraps) {host : Nat → Value}
    (hx : ∀ v ∈ xs, KnownTo host v) (hy : ∀ v ∈ ys, KeysUnique v ∧ KnownTo host v)
    (h : sameItems xs ys = true) : c.ExactItems xs ys := by
  rw [sameItems_iff] at h
  refine ⟨h.1, fun p hp => ?_⟩
  obtain ⟨hpx, hpy⟩ := List.of_mem_zip hp
  exact hn.same_apply (hy _ hpy).1 (hx _ hpx) (hy _ hpy).2 (h.2 p hp)

theorem sameItems_of_exactItems (h : c.ExactItems xs ys)
    (hx : ∀ v ∈ xs, c.normalizer.apply v = v) (hy : ∀ v ∈ ys, c.normalizer.apply v = v) :
    sameItems xs ys = true := by
  rw [sameItems_iff]
  refine ⟨h.1, fun p hp => ?_⟩
  obtain ⟨hpx, hpy⟩ := List.of_mem_zip hp
  have hp' := h.2 p hp
  rwa [exactEquals, hx _ hpx, hy _ hpy] at hp'

/-- the items decide as they stand; they are then exactly equal, and the other way round if the
normalizer leaves them alone -/
theorem exactEquals_sequence (c : Comparer) (hn : c.normalizer.Unwraps) {host : Nat → Value}
    {xs ys : List Value} (hx : ∀ v ∈ xs, KnownTo host v)
    (hy : ∀ v ∈ ys, KeysUnique v ∧ KnownTo host v) :
    (c.exactEquals (.sequence xs) (.sequence ys) = true ↔
        xs.length = ys.length ∧ ∀ p ∈ xs.zip ys, p.1.same p.2 = true) ∧
      (c.exactEquals (.sequence xs) (.sequence ys) = true → c.ExactItems xs ys) ∧
      ((∀ v ∈ xs ++ ys, c.normalizer.apply v = v) → c.ExactItems xs ys →
        c.exactEquals (.sequence xs) (.sequence ys) = true) := by
  rw [exactEquals_eq_sameItems hn]
  refine ⟨sameItems_iff, exactItems_of_sameItems hn hx hy, fun hv h => ?_⟩
  rw [List.forall_mem_append] at hv
  exact sameItems_of_exactItems h hv.1 hv.2

/-- a box beside itself, and numbers of two scales -/
theorem exactEquals_sequence_scaled :
    let c : Comparer := ⟨{}, .unwrapping⟩
    let box : Value := .hostObject ⟨7, "Wrapped"⟩ (some (.text "a"))
    let ten : Value := .number { negative := false, mantissa := 100, scale := 1 }
    let host : Nat → Value := fun _ => box
    c.normalizer.Unwraps ∧ (∀ v ∈ [box, ten], KnownTo host v) ∧
      (∀ v ∈ [box, .count 10], KeysUnique v ∧ KnownTo host v) ∧
      c.exactEquals (.sequence [box, ten]) (.sequence [box, .count 10]) = true ∧
      c.ExactItems [box, ten] [box, .count 10] := by
  intro c box ten host
  have hn : c.normalizer.Unwraps := Normalizer.unwraps_unwrapping
  have hbox : KeysUnique box ∧ KnownTo host box := by
    refine ⟨.hostObject fun v hv => ?_, .hostObject rfl fun v hv => ?_⟩
    · cases hv
      exact .plain rfl nofun
    · cases hv
      exact .plain rfl nofun
  have hx : ∀ v ∈ [box, ten], KnownTo host v :=
    List.forall_mem_cons.2 ⟨hbox.2, List.forall_mem_singleton.2 (.plain rfl nofun)⟩
  have hy : ∀ v ∈ [box, .count 10], KeysUnique v ∧ KnownTo host v :=
    List.forall_mem_cons.2
      ⟨hbox, List.forall_mem_singleton.2 ⟨.plain rfl nofun, .plain rfl nofun⟩⟩
  have he : c.exactEquals (.sequence [box, ten]) (.sequence [box, .count 10]) = true := by decide
  exact ⟨hn, hx, hy, he, (c.exactEquals_sequence hn hx hy).2.1 he⟩

/-- a box in a sequence is not seen through, though the box itself is -/
theorem exactEquals_boxed_item :
    let c : Comparer := ⟨{}, .unwrapping⟩
    let box : Value := .hostObject ⟨7, "Wrapped"⟩ (some (.count 5))
    c.normalizer.Unwraps ∧ c.ExactItems [box] [.count 5] ∧
      c.exactEquals (.sequence [box]) (.sequence [.count 5]) = false ∧
      c.equals (.sequence [box]) (.sequence [.count 5]) = .ok (some true) := by
  intro c box
  have hbox : c.order box (.count 5) = .ok (some .eq) := order_of_other (by decide)
  have horder : c.order (.sequence [box]) (.sequence [.count 5]) = .ok (some .eq) := by
    rw [order_of_sequences rfl rfl]
    show compareParts _ _ _ = _
    rw [compareParts_views_cons, hbox]
    rfl
  refine ⟨Normalizer.unwraps_unwrapping, ⟨rfl, List.forall_mem_singleton.2 (by decide)⟩,
    by decide, ?_⟩
  rw [equals, compare, horder]
  rfl

end Comparer

end ExprLang
