import ExprLang.Proofs.Decimal.Order
import ExprLang.Proofs.Value.Rules
import ExprLang.Proofs.Value.Walk

/-!
# Values of one shape are totally preordered

* `ScalarClass`, `ScalarClass.Holds`   values that one rule compares;
* `Shape`, `Shape.Holds`               a scalar class, or sequences of a shape; null is of any shape;
* `Ranking`                            ranks of values in an ordered type;
* `Ranking.orNull`, `Ranking.items`    null below all other ranks, and sequences by length and then
                                       by the first ranks that differ;
* `Preorders r D`                      the values in `D` are all ordered by `r`, which is reflexive,
                                       reversed by exchanging the operands, and transitive.

The values of a shape are compared by the ranks of that shape (`Comparer.order_eq_ranking`), and ranks
are ordered by lawful orders of the library, so that nothing is left to prove about transitivity.
-/

namespace ExprLang

open Value

/-! ## shapes -/

inductive ScalarClass where
  | boolean
  /-- numbers, and texts that look like numbers and are in the range of decimals -/
  | numeric
  /-- texts that do not look like numbers -/
  | plainText
  | dateTime
  | duration

def ScalarClass.Holds : ScalarClass → Value → Prop
  | .boolean, .boolean _ => True
  | .numeric, .number _ => True
  | .numeric, .text s => Decimal.isDecimalText s = true ∧ (Decimal.ofText? s).isSome = true
  | .plainText, .text s => Decimal.isDecimalText s = false
  | .dateTime, .dateTime _ => True
  | .duration, .duration _ => True
  | _, _ => False

inductive Shape where
  | scalar (c : ScalarClass)
  | sequence (s : Shape)

def Shape.Holds : Shape → Value → Prop
  | .scalar c, v => v = .null ∨ c.Holds v
  | .sequence s, v => v = .null ∨ ∃ items, v = .sequence items ∧ ∀ x ∈ items, s.Holds x

theorem Shape.holds_null (s : Shape) : s.Holds .null := by
  cases s <;> exact .inl rfl

/-! ## ranks -/

structure Ranking where
  Rank : Type
  [ord : Ord Rank]
  [trans : Std.TransOrd Rank]
  rank : Value → Rank

namespace Ranking

attribute [instance] Ranking.ord Ranking.trans

def order (r : Ranking) (a b : Value) : Ordering := compare (r.rank a) (r.rank b)

instance (r : Ranking) : Std.TransCmp r.order where
  eq_swap := Std.OrientedOrd.eq_swap
  isLE_trans h h' := Std.TransOrd.isLE_trans h h'

def orNull (r : Ranking) : Ranking where
  Rank := Option r.Rank
  rank v := if v.isNull then none else some (r.rank v)

/-- the items of a sequence -/
def itemsOf : Value → List Value
  | .sequence items => items
  | _ => []

def items (r : Ranking) : Ranking where
  Rank := List r.Rank
  ord := ⟨compareLex (compareOn List.length) (List.compareLex compare)⟩
  trans := inferInstanceAs
    (Std.TransCmp (compareLex (compareOn List.length) (List.compareLex compare)))
  rank v := (itemsOf v).map r.rank

end Ranking

/-- days, seconds and nanoseconds, by the first that differs -/
def momentOrder : Int × Nat × Nat → Int × Nat × Nat → Ordering :=
  compareLex (compareOn (·.1)) (compareLex (compareOn (·.2.1)) (compareOn (·.2.2)))

instance transCmp_momentOrder : Std.TransCmp momentOrder := by
  unfold momentOrder
  infer_instance

/-- the ranks of a class; a value outside it has some rank of the class -/
def ScalarClass.ranking : ScalarClass → Ranking
  | .boolean => { Rank := Bool, rank := fun | .boolean b => b | _ => false }
  | .numeric =>
    { Rank := Int
      rank := fun
        | .number a => a.units
        | .text s => ((Decimal.ofText? s).getD Decimal.zero).units
        | _ => 0 }
  | .plainText => { Rank := String, rank := fun | .text s => s | _ => "" }
  | .dateTime =>
    { Rank := Int × Nat × Nat
      ord := ⟨momentOrder⟩
      trans := transCmp_momentOrder
      rank := fun | .dateTime t => (t.day, t.second, t.nano) | _ => (0, 0, 0) }
  | .duration => { Rank := Int, rank := fun | .duration d => d.nanos | _ => 0 }

def Shape.ranking : Shape → Ranking
  | .scalar c => c.ranking.orNull
  | .sequence s => s.ranking.items.orNull

section
variable {r : Ranking} {a b : Value}

theorem orNull_order_null (h : a = .null ∨ b = .null) :
    r.orNull.order a b =
      if a.isNull && b.isNull then .eq else if a.isNull then .lt else .gt := by
  rcases h with rfl | rfl
  · cases b <;> rfl
  · cases a <;> rfl

theorem orNull_order (ha : a.isNull = false) (hb : b.isNull = false) :
    r.orNull.order a b = r.order a b := by
  show compare (if a.isNull then none else some (r.rank a))
    (if b.isNull then none else some (r.rank b)) = _
  rw [ha, hb]
  rfl

theorem items_order (xs ys : List Value) :
    r.items.order (.sequence xs) (.sequence ys) =
      (compare xs.length ys.length).then
        (List.compareLex compare (xs.map r.rank) (ys.map r.rank)) := by
  show (compare (xs.map r.rank).length (ys.map r.rank).length).then _ = _
  rw [List.length_map, List.length_map]
  rfl

end

/-! ## scalars -/

section
variable {o : ComparerOptions} {a b : Value}

theorem isNull_of_holds {c : ScalarClass} (h : c.Holds a) : a.isNull = false := by
  cases c <;> cases a <;> first | rfl | exact h.elim

theorem numericOperand_of_holds (h : ScalarClass.numeric.Holds a) :
    isNumeric a = true ∧ ∃ x, numericOperand a = .ok x ∧
      ScalarClass.numeric.ranking.rank a = x.units := by
  cases a with
  | number x => exact ⟨rfl, x, rfl, rfl⟩
  | text s =>
    obtain ⟨x, hx⟩ := Option.isSome_iff_exists.1 h.2
    refine ⟨h.1, x, numericOperand_text hx, ?_⟩
    · show ((Decimal.ofText? s).getD Decimal.zero).units = _
      rw [hx]
      rfl
  | _ => exact h.elim

theorem plainOrder_numeric (f : NumberFormat) (ha : ScalarClass.numeric.Holds a)
    (hb : ScalarClass.numeric.Holds b) :
    plainOrder f a b = .ok (some (ScalarClass.numeric.ranking.order a b)) := by
  obtain ⟨hna, x, hx, hrx⟩ := numericOperand_of_holds ha
  obtain ⟨hnb, y, hy, hry⟩ := numericOperand_of_holds hb
  rw [plainOrder_numbers f hna hnb hx hy, Decimal.compare_eq_units, Ranking.order, hrx, hry]
  rfl

/-- values of one scalar class have the order of their ranks -/
theorem pairOrder_eq_ranking {c : ScalarClass} (ha : c.Holds a) (hb : c.Holds b) :
    pairOrder o a b = .ok (some (c.ranking.order a b)) := by
  cases c with
  | boolean =>
    cases a with
    | boolean x =>
      cases b with
      | boolean y => rfl
      | _ => exact hb.elim
    | _ => exact ha.elim
  | numeric =>
    have hp : pairOrder o a b = plainOrder o.numberFormat a b := by
      cases a <;> first | exact ha.elim | cases b <;> first | exact hb.elim | rfl
    rw [hp, plainOrder_numeric o.numberFormat ha hb]
  | plainText =>
    cases a with
    | text s =>
      cases b with
      | text t => exact plainOrder_texts o.numberFormat ha hb
      | _ => exact hb.elim
    | _ => exact ha.elim
  | dateTime =>
    cases a with
    | dateTime t =>
      cases b with
      | dateTime u => rfl
      | _ => exact hb.elim
    | _ => exact ha.elim
  | duration =>
    cases a with
    | duration d =>
      cases b with
      | duration e => rfl
      | _ => exact hb.elim
    | _ => exact ha.elim

end

/-! ## all shapes -/

namespace Comparer

variable {c : Comparer}

/-- the order of items, if that of any two items is that of their ranks -/
theorem compareParts_eq_ranking {r : Ranking} {D : Value → Prop}
    (h : ∀ {a b}, D a → D b → c.order a b = .ok (some (r.order a b))) {xs ys : List Value}
    (hl : xs.length = ys.length) (hxs : ∀ x ∈ xs, D x) (hys : ∀ y ∈ ys, D y) :
    compareParts c.options (xs.map c.normalizer.view) (ys.map c.normalizer.view) =
      .ok (some (List.compareLex Ord.compare (xs.map r.rank) (ys.map r.rank))) := by
  induction xs generalizing ys with
  | nil =>
    cases ys with
    | nil => rfl
    | cons y ys => cases hl
  | cons x xs ih =>
    cases ys with
    | nil => cases hl
    | cons y ys =>
      rw [List.forall_mem_cons] at hxs hys
      have hxy : c.order x y = .ok (some (Ord.compare (r.rank x) (r.rank y))) := h hxs.1 hys.1
      rw [compareParts_views_cons, hxy, ih (Nat.succ.inj hl) hxs.2 hys.2, List.map_cons,
        List.map_cons, List.compareLex_cons_cons]
      cases Ord.compare (r.rank x) (r.rank y) <;> rfl

variable (hm : c.options.nullComparison = .minValue) (hn : c.normalizer = .identity)
include hm hn

theorem order_null {r : Ranking} {a b : Value} (h : a = .null ∨ b = .null) :
    c.order a b = .ok (some (r.orNull.order a b)) := by
  have hk : ¬ (a.kind = .sequence ∧ b.kind = .sequence) := by
    rcases h with rfl | rfl
    · exact fun hk => nomatch hk.1
    · exact fun hk => nomatch hk.2
  have hnull : (a.isNull || b.isNull) = true := by
    rcases h with rfl | rfl
    · rfl
    · exact Bool.or_true _
  rw [order_of_other (by rw [hn]; exact hk), hn]
  show pairOrder c.options a b = _
  rw [pairOrder_of_null _ hnull, hm, orNull_order_null h]
  rfl

theorem order_eq_ranking (s : Shape) {a b : Value} (ha : s.Holds a) (hb : s.Holds b) :
    c.order a b = .ok (some (s.ranking.order a b)) := by
  induction s generalizing a b with
  | scalar k =>
    rcases ha with ha | ha
    · exact order_null hm hn (.inl ha)
    rcases hb with hb | hb
    · exact order_null hm hn (.inr hb)
    have hk : ¬ (a.kind = .sequence ∧ b.kind = .sequence) := by
      intro hk
      cases k <;> cases a <;> first | exact ha.elim | cases hk.1
    rw [order_of_other (by rw [hn]; exact hk), hn]
    show pairOrder c.options a b = .ok (some (k.ranking.orNull.order a b))
    rw [pairOrder_eq_ranking ha hb, orNull_order (isNull_of_holds ha) (isNull_of_holds hb)]
  | sequence s ih =>
    rcases ha with ha | ⟨xs, rfl, hxs⟩
    · exact order_null hm hn (.inl ha)
    rcases hb with hb | ⟨ys, rfl, hys⟩
    · exact order_null hm hn (.inr hb)
    have hvx : c.normalizer.apply (.sequence xs) = .sequence xs := by
      rw [hn]
      rfl
    have hvy : c.normalizer.apply (.sequence ys) = .sequence ys := by
      rw [hn]
      rfl
    show _ = Except.ok (some (s.ranking.items.orNull.order _ _))
    rw [order_of_sequences hvx hvy, orNull_order rfl rfl, items_order]
    by_cases hl : xs.length = ys.length
    · rw [if_pos hl, compareParts_eq_ranking ih hl hxs hys, hl, Std.compare_self]
      rfl
    · have hne : Ord.compare xs.length ys.length ≠ .eq := fun h => hl (Std.compare_eq_iff_eq.1 h)
      rw [if_neg hl]
      cases hc : Ord.compare xs.length ys.length with
      | eq => exact absurd hc hne
      | lt => rfl
      | gt => rfl

end Comparer

/-! ## total preorders -/

structure Preorders (r : Value → Value → Comparison) (D : Value → Prop) : Prop where
  total : ∀ {a b}, D a → D b → ∃ o, r a b = .ok (some o)
  refl : ∀ {a}, D a → r a a = .ok (some .eq)
  swap : ∀ {a b o}, D a → D b → r a b = .ok (some o) → r b a = .ok (some o.swap)
  trans : ∀ {a b c o p}, D a → D b → D c → r a b = .ok (some o) → o.isLE = true →
    r b c = .ok (some p) → p.isLE = true → ∃ q, r a c = .ok (some q) ∧ q.isLE = true
  congr : ∀ {a b c}, D a → D b → D c → r a b = .ok (some .eq) → r a c = r b c ∧ r c a = r c b

theorem preorders_of_ranking {r : Value → Value → Comparison} {D : Value → Prop} (k : Ranking)
    (h : ∀ {a b}, D a → D b → r a b = .ok (some (k.order a b))) : Preorders r D where
  total ha hb := ⟨_, h ha hb⟩
  refl ha := (h ha ha).trans (congrArg (fun o => Except.ok (some o)) Std.ReflCmp.compare_self)
  swap {a b o} ha hb hab := by
    rw [h ha hb] at hab
    cases hab
    exact (h hb ha).trans (congrArg (fun o => Except.ok (some o)) Std.OrientedCmp.eq_swap)
  trans {a b c o p} ha hb hc hab ho hbc hp := by
    rw [h ha hb] at hab
    rw [h hb hc] at hbc
    cases hab
    cases hbc
    exact ⟨_, h ha hc, Std.TransCmp.isLE_trans ho hp⟩
  congr {a b c} ha hb hc hab := by
    rw [h ha hb] at hab
    have he : k.order a b = .eq := Option.some.inj (Except.ok.inj hab)
    rw [h ha hc, h hb hc, h hc ha, h hc hb]
    exact ⟨congrArg (fun o => Except.ok (some o)) (Std.TransCmp.congr_left he),
      congrArg (fun o => Except.ok (some o)) (Std.TransCmp.congr_right he)⟩

theorem Comparer.compare_preorders (c : Comparer) (hm : c.options.nullComparison = .minValue)
    (hn : c.normalizer = .identity) (s : Shape) : Preorders c.compare s.Holds := by
  refine preorders_of_ranking s.ranking fun {a b} ha hb => ?_
  rw [compare, order_eq_ranking hm hn s ha hb]

/-- a number beside a text of another scale, within sequences that also hold null -/
theorem Comparer.compare_preorders_nested :
    let c : Comparer := {}
    let s : Shape := .sequence (.sequence (.scalar .numeric))
    let a : Value := .sequence [.sequence [.text "+2.50", .null], .null]
    let b : Value := .sequence
      [.sequence [.number { negative := false, mantissa := 25, scale := 1 }, .null], .null]
    c.options.nullComparison = .minValue ∧ c.normalizer = .identity ∧ s.Holds a ∧ s.Holds b ∧
      Preorders c.compare s.Holds ∧ c.compare a b = .ok (some .eq) := by
  intro c s a b
  have pair {k : Shape} {v : Value} (h : k.Holds v) : k.sequence.Holds (.sequence [v, .null]) := by
    refine .inr ⟨_, rfl, ?_⟩
    rw [List.forall_mem_cons, List.forall_mem_singleton]
    exact ⟨h, k.holds_null⟩
  have ha : s.Holds a := pair (pair (.inr ⟨by decide, by decide⟩))
  have hb : s.Holds b := pair (pair (.inr trivial))
  have hr : s.ranking.order a b = .eq := by decide +kernel
  have hab : c.compare a b = .ok (some .eq) := by
    rw [compare, order_eq_ranking rfl rfl s ha hb, hr]
  exact ⟨rfl, rfl, ha, hb, c.compare_preorders rfl rfl s, hab⟩

end ExprLang
