import ExprLang.Eval.Operate
import ExprLang.Proofs.Value.Equality
import ExprLang.Proofs.Value.Rules
import ExprLang.Proofs.Value.Walk

/-!
# Comparing the other way round

* `Mixed n a b`   the normalized values are compared by a conversion of kinds, or are sequences of one
                  length of which two items are;
* `Reversed r s`  two comparisons have opposite results, or both are undecided, or both are errors;
* `Agree r s`     two evaluations have one value, or both are errors.

Each rule is its own mirror image: which one fits does not depend on the order of the operands.  Only
the conversion of kinds prefers a side, so `compare_antisymmetric` leaves it out.
-/

namespace ExprLang

open Value

/-! ## what is compared by conversion -/

/-- kinds of which at least one is ordered, where no rule before the conversion fits -/
def Value.Kind.mixed (k l : Kind) : Bool :=
  k != l && k != .null && l != .null && k != .boolean && l != .boolean &&
    !(k == .number && l == .text || k == .text && l == .number) && (k.isOrdered || l.isOrdered)

theorem Value.Kind.not_ordered {k l : Kind} (h : k.mixed l = false) (hne : k ≠ l)
    (hk : k ≠ .null ∧ k ≠ .boolean) (hl : l ≠ .null ∧ l ≠ .boolean)
    (hnt : ¬ (k = .number ∧ l = .text)) (htn : ¬ (k = .text ∧ l = .number)) :
    k.isOrdered = false ∧ l.isOrdered = false := by
  rw [← Bool.or_eq_false_iff]
  cases ho : k.isOrdered || l.isOrdered with
  | false => rfl
  | true =>
    have hm : k.mixed l = true := by
      rw [Classical.not_and_iff_not_or_not] at hnt htn
      simp [mixed, hne, hk, hl, hnt, htn, ho]
    rw [h] at hm
    cases hm

inductive Mixed (n : Normalizer) : Value → Value → Prop where
  | kinds {a b : Value} : (n.apply a).kind.mixed (n.apply b).kind = true → Mixed n a b
  | items {a b x y : Value} {xs ys : List Value} : n.apply a = .sequence xs →
      n.apply b = .sequence ys → xs.length = ys.length → (x, y) ∈ xs.zip ys → Mixed n x y →
      Mixed n a b

/-- a normalizer whose values have unique keys in their mappings -/
def Normalizer.KeepsKeys (n : Normalizer) : Prop := ∀ v, KeysUnique v → KeysUnique (n.apply v)

theorem Normalizer.keepsKeys_identity : identity.KeepsKeys := fun _ h => h

theorem Normalizer.keepsKeys_unwrapping : unwrapping.KeepsKeys := by
  intro v h
  show KeysUnique v.unwrap
  unfold Value.unwrap
  split
  · exact h.held
  · exact h

/-! ## opposite results -/

def Reversed : Comparison → Comparison → Prop
  | .ok r, .ok s => s = r.map Ordering.swap
  | .error _, .error _ => True
  | _, _ => False

def Agree : Except EvalError Value → Except EvalError Value → Prop
  | .ok v, .ok w => v = w
  | .error _, .error _ => True
  | _, _ => False

theorem reversed_ok {r s : Option Ordering} (h : s = r.map Ordering.swap) :
    Reversed (.ok r) (.ok s) := h

theorem reversed_some {o p : Ordering} (h : p = o.swap) : Reversed (.ok (some o)) (.ok (some p)) :=
  congrArg some h

theorem Reversed.cases {r s : Comparison} (h : Reversed r s) :
    (∃ o, r = .ok o ∧ s = .ok (o.map Ordering.swap)) ∨ ∃ e e', r = .error e ∧ s = .error e' := by
  cases r with
  | error e =>
    cases s with
    | error e' => exact .inr ⟨e, e', rfl, rfl⟩
    | ok s => exact h.elim
  | ok r =>
    cases s with
    | error e' => exact h.elim
    | ok s => exact .inl ⟨r, rfl, congrArg Except.ok h⟩

theorem compare_swap {α : Type} [Ord α] [Std.OrientedOrd α] (a b : α) :
    compare b a = (compare a b).swap := Std.OrientedOrd.eq_swap

/-! ## the rules -/

section
variable {a b : Value}

theorem nullOrder_reversed (mode : NullComparison) (h : a.isNull = true ∨ b.isNull = true) :
    nullOrder mode b a = (nullOrder mode a b).map Ordering.swap := by
  cases mode with
  | sql => rfl
  | minValue =>
    rw [nullOrder, nullOrder]
    cases ha : a.isNull with
    | false =>
      cases hb : b.isNull with
      | false =>
        rw [ha, hb] at h
        simp at h
      | true => rfl
    | true => cases hb : b.isNull <;> rfl

theorem dateTime_compare_swap (t u : DateTime) : u.compare t = (t.compare u).swap := by
  rw [DateTime.compare, DateTime.compare, Ordering.swap_then, Ordering.swap_then,
    compare_swap t.day, compare_swap t.second, compare_swap t.nano]

theorem naturalOrder_swap (ha : KeysUnique a) (hb : KeysUnique b) :
    naturalOrder b a = (naturalOrder a b).map Ordering.swap := by
  cases a with
  | boolean x =>
    cases b with
    | boolean y => exact congrArg some (compare_swap x y)
    | _ => rfl
  | number x =>
    cases b with
    | number y => exact congrArg some (compare_swap ..)
    | _ => rfl
  | text x =>
    cases b with
    | text y => exact congrArg some (compare_swap x y)
    | _ => rfl
  | dateTime x =>
    cases b with
    | dateTime y => exact congrArg some (dateTime_compare_swap x y)
    | _ => rfl
  | duration x =>
    cases b with
    | duration y => exact congrArg some (compare_swap ..)
    | _ => rfl
  | mapping xs =>
    cases b with
    | mapping ys =>
      rw [naturalOrder, naturalOrder, same_comm hb.distinct ha.distinct]
      split <;> rfl
    | _ => rfl
  | callable x =>
    cases b with
    | callable y =>
      rw [naturalOrder, naturalOrder]
      simp only [eq_comm (a := y.identity)]
      split <;> rfl
    | _ => rfl
  | hostObject x held =>
    cases b with
    | hostObject y held' =>
      rw [naturalOrder, naturalOrder]
      simp only [eq_comm (a := y.identity)]
      split <;> rfl
    | _ => rfl
  | null => cases b <;> rfl
  | sequence xs => cases b <;> rfl

theorem naturalOrder_isSome (h : a.kind = b.kind) (ho : a.kind.isOrdered = true) :
    (naturalOrder a b).isSome = true := by
  cases a <;> cases ho <;> cases b <;> cases h <;> rfl

theorem lexicalOrder_swap (a b : Value) : lexicalOrder b a = (lexicalOrder a b).swap := by
  rw [lexicalOrder, lexicalOrder, Ordering.swap_then, compare_swap a.display]
  congr 1
  cases a.handle? with
  | none => cases b.handle? <;> rfl
  | some x =>
    cases b.handle? with
    | none => rfl
    | some y => exact compare_swap x.identity y.identity

theorem convertedOrder_reversed (f : NumberFormat) (ha : KeysUnique a) (hb : KeysUnique b)
    (ho : naturalOrder a b = none → a.kind.isOrdered = false ∧ b.kind.isOrdered = false) :
    convertedOrder f b a = (convertedOrder f a b).map Ordering.swap := by
  rw [convertedOrder, convertedOrder, naturalOrder_swap ha hb]
  cases h : naturalOrder a b with
  | some o => rfl
  | none =>
    obtain ⟨h1, h2⟩ := ho h
    rw [h1, h2, lexicalOrder_swap a b]
    rfl

theorem plainOrder_reversed (f : NumberFormat) (ha : KeysUnique a) (hb : KeysUnique b)
    (hna : a.kind ≠ .null ∧ a.kind ≠ .boolean) (hnb : b.kind ≠ .null ∧ b.kind ≠ .boolean)
    (hm : a.kind.mixed b.kind = false) : Reversed (plainOrder f a b) (plainOrder f b a) := by
  rw [plainOrder, plainOrder, Bool.and_comm (isNumeric b) (isNumeric a),
    Bool.or_comm (isNumeric b && isText a)]
  split
  · cases hx : numericOperand a with
    | error e => cases hy : numericOperand b <;> trivial
    | ok x =>
      cases hy : numericOperand b with
      | error e => trivial
      | ok y => exact reversed_some (compare_swap ..)
  · split
    · exact reversed_some (compare_swap ..)
    · next h =>
      refine reversed_ok (convertedOrder_reversed f ha hb fun hn => ?_)
      by_cases hk : a.kind = b.kind
      · have ho : a.kind.isOrdered = false := by
          cases ho : a.kind.isOrdered with
          | false => rfl
          | true =>
            have hs := naturalOrder_isSome hk ho
            rw [hn] at hs
            cases hs
        exact ⟨ho, hk ▸ ho⟩
      · -- a number and a text would have been compared before
        have hnt {v w : Value} (hv : v.kind = .number) (hw : w.kind = .text) :
            (isNumeric v && isText w) = true := by
          cases v <;> cases hv
          cases w <;> cases hw
          rfl
        rw [Bool.or_eq_true, not_or] at h
        exact Kind.not_ordered hm hk hna hnb (fun hk => h.1 (hnt hk.1 hk.2))
          fun hk => h.2 (hnt hk.2 hk.1)

theorem pairOrder_reversed (o : ComparerOptions) (ha : KeysUnique a) (hb : KeysUnique b)
    (hm : a.kind.mixed b.kind = false) : Reversed (pairOrder o a b) (pairOrder o b a) := by
  by_cases hn : a.isNull = true ∨ b.isNull = true
  · have hab : (a.isNull || b.isNull) = true := by rwa [Bool.or_eq_true]
    have hba : (b.isNull || a.isNull) = true := Bool.or_comm .. ▸ hab
    rw [pairOrder_of_null o hab, pairOrder_of_null o hba]
    exact reversed_ok (nullOrder_reversed o.nullComparison hn)
  · rw [not_or] at hn
    have hna : a.kind ≠ .null := by
      intro h
      cases a <;> cases h
      exact hn.1 rfl
    have hnb : b.kind ≠ .null := by
      intro h
      cases b <;> cases h
      exact hn.2 rfl
    by_cases hba : a.kind = .boolean
    · cases a <;> cases hba
      cases b <;> first | exact absurd rfl hnb | exact reversed_some (compare_swap ..)
    · by_cases hbb : b.kind = .boolean
      · cases b <;> cases hbb
        cases a <;> first | exact absurd rfl hna | exact reversed_some (compare_swap ..)
      · rw [pairOrder_eq_plainOrder o ⟨hna, hba⟩ ⟨hnb, hbb⟩,
          pairOrder_eq_plainOrder o ⟨hnb, hbb⟩ ⟨hna, hba⟩]
        exact plainOrder_reversed o.numberFormat ha hb ⟨hna, hba⟩ ⟨hnb, hbb⟩ hm

end

/-! ## walks -/

theorem mirroring_reversed : Mirroring Reversed where
  equal := reversed_some rfl
  lengths m n := reversed_some (compare_swap m n)
  andThen {r s p q} h hpq := by
    rcases h.cases with ⟨o, rfl, rfl⟩ | ⟨e, e', rfl, rfl⟩
    · cases o with
      | none => exact reversed_ok rfl
      | some o =>
        cases o with
        | eq => exact hpq rfl
        | lt => exact reversed_some rfl
        | gt => exact reversed_some rfl
    · trivial

namespace Comparer

variable {c : Comparer} (hn : c.normalizer.KeepsKeys)
include hn

theorem keysUnique_items {a b x y : Value} {xs ys : List Value} (h : KeysUnique a ∧ KeysUnique b)
    (hxs : c.normalizer.apply a = .sequence xs) (hys : c.normalizer.apply b = .sequence ys)
    (hxy : c.Meets xs ys x y) : KeysUnique x ∧ KeysUnique y := by
  have hka : KeysUnique (.sequence xs) := hxs ▸ hn a h.1
  have hkb : KeysUnique (.sequence ys) := hys ▸ hn b h.2
  have hm : x ∈ xs ∧ y ∈ ys := List.of_mem_zip hxy.mem_zip
  exact ⟨hka.items x hm.1, hkb.items y hm.2⟩

theorem order_reversed {a b : Value} (ha : KeysUnique a) (hb : KeysUnique b)
    (hm : ¬ Mixed c.normalizer a b) : Reversed (c.order a b) (c.order b a) := by
  refine order_related mirroring_reversed
    (P := fun a b => (KeysUnique a ∧ KeysUnique b) ∧ ¬ Mixed c.normalizer a b) ?_ ?_ ⟨⟨ha, hb⟩, hm⟩
  · intro a b x y xs ys h hxs hys hl hxy
    exact ⟨keysUnique_items hn h.1 hxs hys hxy,
      fun hxm => h.2 (.items hxs hys hl hxy.mem_zip hxm)⟩
  · intro a b h
    refine pairOrder_reversed c.options (hn a h.1.1) (hn b h.1.2) ?_
    rw [Bool.eq_false_iff]
    exact fun hk => h.2 (.kinds hk)

theorem compare_reversed {a b : Value} (ha : KeysUnique a) (hb : KeysUnique b)
    (hm : ¬ Mixed c.normalizer a b) : Reversed (c.compare a b) (c.compare b a) := by
  rw [compare, compare]
  rcases (order_reversed hn ha hb hm).cases with ⟨o, h, h'⟩ | ⟨e, e', h, h'⟩
  · rw [h, h']
    exact reversed_ok rfl
  · rw [h, h']
    dsimp only
    split
    · exact reversed_ok rfl
    · trivial

end Comparer

/-! ## operators -/

namespace BinaryOp

variable {c : Comparer} {a b : Value} (h : Reversed (c.compare a b) (c.compare b a))
include h

theorem ordered_agree {test test' : Ordering → Bool} (ht : ∀ o, test' o.swap = test o) :
    Agree (ordered c test a b) (ordered c test' b a) := by
  rw [ordered, ordered]
  rcases h.cases with ⟨o, hr, hs⟩ | ⟨e, e', hr, hs⟩
  · rw [hr, hs]
    show truth (o.map test) = truth ((o.map Ordering.swap).map test')
    cases o with
    | none => rfl
    | some o => rw [Option.map_some, Option.map_some, Option.map_some, ht]
  · rw [hr, hs]
    trivial

theorem equated_agree (test : Bool → Bool) :
    Agree (equated c test a b) (equated c test b a) := by
  rw [equated, equated, Comparer.equals, Comparer.equals]
  rcases h.cases with ⟨o, hr, hs⟩ | ⟨e, e', hr, hs⟩
  · rw [hr, hs]
    rcases o with _ | _ | _ | _ <;> exact rfl
  · rw [hr, hs]
    trivial

end BinaryOp

theorem Comparer.compare_antisymmetric (c : Comparer) (hn : c.normalizer.KeepsKeys) {a b : Value}
    (ha : KeysUnique a) (hb : KeysUnique b) (hm : ¬ Mixed c.normalizer a b) :
    Reversed (c.compare a b) (c.compare b a) ∧
      Agree (BinaryOp.lessThan.apply c a b) (BinaryOp.greaterThan.apply c b a) ∧
      Agree (BinaryOp.lessEqual.apply c a b) (BinaryOp.greaterEqual.apply c b a) ∧
      Agree (BinaryOp.equal.apply c a b) (BinaryOp.equal.apply c b a) := by
  have h := compare_reversed hn ha hb hm
  exact ⟨h, BinaryOp.ordered_agree h fun o => by cases o <;> rfl,
    BinaryOp.ordered_agree h fun o => by cases o <;> rfl, BinaryOp.equated_agree h _⟩

/-- a wrapped mapping and a plain one, with the same entries in another order -/
theorem Comparer.compare_antisymmetric_wrapped :
    let c : Comparer := ⟨{ nullComparison := .sql }, .unwrapping⟩
    let b : Value := .mapping [(.text "k", .boolean true), (.number Decimal.one, .null)]
    let a : Value := .hostObject ⟨7, "Box"⟩
      (some (.mapping [(.number Decimal.one, .null), (.text "k", .boolean true)]))
    c.normalizer.KeepsKeys ∧ KeysUnique a ∧ KeysUnique b ∧ ¬ Mixed c.normalizer a b ∧
      Reversed (c.compare a b) (c.compare b a) ∧ c.compare a b = .ok (some .eq) ∧
      Agree (BinaryOp.equal.apply c a b) (BinaryOp.equal.apply c b a) := by
  intro c b a
  have plain {es : Entries} (hu : es.Pairwise fun e f => e.1.same f.1 = false)
      (h : ∀ e ∈ es, (e.1.kind.isCollection = false ∧ e.1.kind ≠ .hostObject) ∧
        e.2.kind.isCollection = false ∧ e.2.kind ≠ .hostObject) : KeysUnique (.mapping es) :=
    .mapping hu (fun e he => .plain (h e he).1.1 (h e he).1.2)
      fun e he => .plain (h e he).2.1 (h e he).2.2
  have hb : KeysUnique b := plain (by decide) (by decide)
  have ha : KeysUnique a := .hostObject fun v hv => by
    cases hv
    exact plain (by decide) (by decide)
  have hm : ¬ Mixed c.normalizer a b := by
    intro h
    cases h with
    | kinds h => cases h
    | items h => cases h
  have h := c.compare_antisymmetric Normalizer.keepsKeys_unwrapping ha hb hm
  have he : c.compare a b = .ok (some .eq) := by
    have hv : c.normalizer.view a = .leaf (c.normalizer.apply a) :=
      Normalizer.view_of_other fun _ h => by cases h
    have hw : c.normalizer.view b = .leaf (c.normalizer.apply b) :=
      Normalizer.view_of_other fun _ h => by cases h
    rw [Comparer.compare, Comparer.order, hv, hw]
    rfl
  exact ⟨Normalizer.keepsKeys_unwrapping, ha, hb, hm, h.1, he, h.2.2.2⟩

end ExprLang
