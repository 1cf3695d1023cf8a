import ExprLang.Proofs.Relaxation.Comparing
import ExprLang.Proofs.Semantics.Folding
import ExprLang.Proofs.Semantics.Invariant
import ExprLang.Proofs.Value.Ending
import ExprLang.Proofs.Value.Refinement

/-!
# When a comparison is undecided or fails

* `LeavesOpen o x y`             one of the values is null, and null decides nothing;
* `FailsWith x y s`              the values look like numbers, and `s` is the first text of them that
                                 is out of the range of decimals;
* `Settled o x y r`              the result `r` is undecided, an error or an order, as these two
                                 say;
* `Comparer.Undecided c a b`, `Comparer.OutOfRange c a b s`   the walk ends at such values;
* `Comparer.suppressing b c`     the comparer with its errors suppressed or not;
* `BinaryOp.compares`            the six operators that compare their operands loosely.

A conversion of kinds always comes to an order (`convertedOrder_ne_none`), so each rule is settled by
the two values that it is applied to (`pairOrder_settled`).  A walk is settled by the pair at its end.
-/

namespace ExprLang

open Value

/-! ## what decides nothing -/

theorem kind_of_convertTo {f : NumberFormat} {v w : Value} {k : Kind}
    (h : v.convertTo f k = some w) : w.kind = k := by
  unfold convertTo at h
  split at h
  · next hk =>
    cases h
    exact hk
  · split at h
    all_goals first
      | cases h; rfl
      | obtain ⟨x, -, rfl⟩ := Option.map_eq_some_iff.1 h; rfl
      | cases h

/-- nothing but a value of the kind becomes one of a kind without an order -/
theorem convertTo_unordered (f : NumberFormat) {v : Value} {k : Kind} (hk : k.isOrdered = false)
    (hne : v.kind ≠ k) : v.convertTo f k = none := by
  unfold convertTo
  rw [if_neg hne]
  split <;> first | rfl | cases hk

theorem convertedOrder_ne_none (f : NumberFormat) (a b : Value) : convertedOrder f a b ≠ none := by
  intro h
  unfold convertedOrder at h
  split at h
  · cases h
  · next hnone =>
    split at h
    · next ho =>
      split at h
      · next w hw =>
        -- an unordered kind is only had from itself, and then both sides are unordered
        have hkw := kind_of_convertTo hw
        cases hao : a.kind.isOrdered with
        | true =>
          have := naturalOrder_isSome hkw.symm hao
          rw [h] at this
          cases this
        | false =>
          by_cases hk : b.kind = a.kind
          · rw [hk, hao] at ho
            cases ho
          · rw [convertTo_unordered f hao hk] at hw
            cases hw
      · split at h
        · next w hw =>
          have hkw := kind_of_convertTo hw
          cases hbo : b.kind.isOrdered with
          | true =>
            have := naturalOrder_isSome hkw (hkw ▸ hbo)
            rw [h] at this
            cases this
          | false =>
            by_cases hk : a.kind = b.kind
            · rw [hk, hbo] at ho
              cases ho
            · rw [convertTo_unordered f hbo hk] at hw
              cases hw
        · cases h
    · cases h

/-! ## what fails -/

/-- the text of a value that looks like a number out of range -/
def outOfRange? : Value → Option String
  | .text s => if Decimal.isOutOfRange s then some s else none
  | _ => none

theorem numericOperand_cases {v : Value} (h : isNumeric v = true) :
    (∃ s, outOfRange? v = some s ∧ numericOperand v = .error (.outOfDecimalRange s)) ∨
      ∃ x, outOfRange? v = none ∧ numericOperand v = .ok x := by
  cases v with
  | number x => exact .inr ⟨x, rfl, rfl⟩
  | text s =>
    have hs : Decimal.isDecimalText s = true := h
    cases hr : Decimal.ofText? s with
    | none =>
      refine .inl ⟨s, ?_, numericOperand_error hr⟩
      rw [outOfRange?, Decimal.isOutOfRange, hs, hr]
      rfl
    | some x =>
      refine .inr ⟨x, ?_, numericOperand_text hr⟩
      rw [outOfRange?, Decimal.isOutOfRange, hs, hr]
      rfl
  | _ => cases h

/-! ## all outcomes -/

/-- one of the values is null, and null leaves orders open -/
def LeavesOpen (o : ComparerOptions) (x y : Value) : Prop :=
  o.nullComparison = .sql ∧ (x.isNull = true ∨ y.isNull = true)

/-- both values look like numbers, and `s` is the first text of them that is out of range -/
def FailsWith (x y : Value) (s : String) : Prop :=
  isNumeric x = true ∧ isNumeric y = true ∧ (outOfRange? x).or (outOfRange? y) = some s

inductive Settled (o : ComparerOptions) (x y : Value) : Comparison → Prop where
  | undecided : LeavesOpen o x y → Settled o x y (.ok none)
  | outOfRange {s : String} : FailsWith x y s → Settled o x y (.error (.outOfDecimalRange s))
  | ordered (r : Ordering) : ¬ LeavesOpen o x y → (∀ s, ¬ FailsWith x y s) →
      Settled o x y (.ok (some r))

section
variable {o : ComparerOptions} {x y : Value}

theorem not_leavesOpen (hx : x.isNull = false) (hy : y.isNull = false) : ¬ LeavesOpen o x y := by
  intro h
  rcases h.2 with h | h
  · rw [hx] at h
    cases h
  · rw [hy] at h
    cases h

/-- null is no number, so no text is read beside it -/
theorem not_fails_of_null (h : x.isNull = true ∨ y.isNull = true) (s : String) :
    ¬ FailsWith x y s := by
  have numeric {v : Value} (hv : v.isNull = true) : isNumeric v = false := by
    cases v <;> first | rfl | cases hv
  intro hf
  rcases h with h | h
  · rw [FailsWith, numeric h] at hf
    cases hf.1
  · rw [FailsWith, numeric h] at hf
    cases hf.2.1

theorem plainOrder_settled (hx : x.isNull = false) (hy : y.isNull = false) :
    Settled o x y (plainOrder o.numberFormat x y) := by
  have hopen := not_leavesOpen (o := o) hx hy
  unfold plainOrder
  split
  · next hn =>
    rw [Bool.and_eq_true] at hn
    rcases numericOperand_cases hn.1 with ⟨s, hs, hop⟩ | ⟨m, hs, hop⟩
    · rw [hop]
      exact .outOfRange ⟨hn.1, hn.2, by rw [hs, Option.some_or]⟩
    · rw [hop]
      rcases numericOperand_cases hn.2 with ⟨t, ht, hop'⟩ | ⟨n, ht, hop'⟩
      · rw [hop']
        exact .outOfRange ⟨hn.1, hn.2, by rw [hs, Option.none_or, ht]⟩
      · rw [hop']
        refine .ordered _ hopen fun s hf => ?_
        rw [FailsWith, hs, ht] at hf
        cases hf.2.2
  · next hn =>
    have hfails (s : String) : ¬ FailsWith x y s :=
      fun hf => hn (Bool.and_eq_true .. ▸ ⟨hf.1, hf.2.1⟩)
    split
    · exact .ordered _ hopen hfails
    · cases ho : convertedOrder o.numberFormat x y with
      | none => exact absurd ho (convertedOrder_ne_none _ x y)
      | some r => exact .ordered r hopen hfails

theorem pairOrder_settled : Settled o x y (pairOrder o x y) := by
  cases hn : x.isNull || y.isNull with
  | true =>
    rw [pairOrder_of_null o hn]
    rw [Bool.or_eq_true] at hn
    cases hm : o.nullComparison with
    | sql => exact .undecided ⟨hm, hn⟩
    | minValue =>
      have hopen : ¬ LeavesOpen o x y := fun h => by
        rw [LeavesOpen, hm] at h
        cases h.1
      exact .ordered _ hopen (not_fails_of_null hn)
  | false =>
    rw [Bool.or_eq_false_iff] at hn
    have hopen := not_leavesOpen (o := o) hn.1 hn.2
    unfold pairOrder
    rw [hn.1, hn.2, Bool.or_self, if_neg Bool.false_ne_true]
    split
    · exact .ordered _ hopen fun s hf => by cases hf.1
    · exact .ordered _ hopen fun s hf => by cases hf.1
    · exact .ordered _ hopen fun s hf => by cases hf.2.1
    · exact plainOrder_settled hn.1 hn.2

theorem endOrder_settled : Settled o x y (endOrder o (some (x, y))) := by
  by_cases h : x.kind = .sequence ∧ y.kind = .sequence
  · obtain ⟨xs, rfl⟩ := Value.eq_sequence h.1
    obtain ⟨ys, rfl⟩ := Value.eq_sequence h.2
    exact .ordered _ (not_leavesOpen rfl rfl) fun s hf => by cases hf.1
  · rw [endOrder_of_other o h]
    exact pairOrder_settled

theorem Settled.outcome {r : Comparison} (h : Settled o x y r) :
    (r = .ok none ↔ LeavesOpen o x y) ∧
      (∀ s, r = .error (.outOfDecimalRange s) ↔ FailsWith x y s) ∧
      ((∃ q, r = .ok (some q)) ↔ ¬ LeavesOpen o x y ∧ ∀ s, ¬ FailsWith x y s) := by
  cases h with
  | undecided h =>
    have hf (s : String) := not_fails_of_null h.2 s
    exact ⟨⟨fun _ => h, fun _ => rfl⟩, fun s => ⟨nofun, fun hs => absurd hs (hf s)⟩,
      nofun, fun hn => absurd h hn.1⟩
  | @outOfRange s h =>
    have hn (ho : LeavesOpen o x y) : False := not_fails_of_null ho.2 s h
    refine ⟨⟨nofun, fun ho => (hn ho).elim⟩, fun t => ⟨fun ht => ?_, fun hf => ?_⟩,
      nofun, fun hf => absurd h (hf.2 s)⟩
    · cases ht
      exact h
    · cases h.2.2.symm.trans hf.2.2
      rfl
  | ordered q hn hf =>
    exact ⟨⟨nofun, fun h => absurd h hn⟩, fun s => ⟨nofun, fun h => absurd h (hf s)⟩,
      fun _ => ⟨hn, hf⟩, fun _ => ⟨q, rfl⟩⟩

end

namespace Comparer

def suppressing (suppress : Bool) (c : Comparer) : Comparer :=
  { c with options := { c.options with suppressErrors := suppress } }

def Undecided (c : Comparer) (a b : Value) : Prop :=
  ∃ x y, c.EndsAt a b x y ∧ LeavesOpen c.options x y

def OutOfRange (c : Comparer) (a b : Value) (s : String) : Prop :=
  ∃ x y, c.EndsAt a b x y ∧ FailsWith x y s

/-- a comparison whose error is suppressed -/
def quiet : Comparison → Comparison
  | .ok r => .ok r
  | .error _ => .ok none

variable {c : Comparer} {a b : Value}

theorem order_suppressing (suppress : Bool) : (c.suppressing suppress).order a b = c.order a b := by
  have hloud {o : ComparerOptions} :
      ComparerOptions.Under { c.options with suppressErrors := false }
        { c.options with suppressErrors := o.suppressErrors } := ⟨rfl, rfl, nofun⟩
  have h1 := order_congr (hloud (o := c.options)) c.normalizer a b
  have h2 := order_congr (hloud (o := { suppressErrors := suppress })) c.normalizer a b
  exact h2.symm.trans h1

theorem compare_loud : (c.suppressing false).compare a b = c.order a b := by
  rw [compare, order_suppressing]
  cases c.order a b <;> rfl

theorem compare_quiet : (c.suppressing true).compare a b = quiet (c.order a b) := by
  rw [compare, order_suppressing]
  cases c.order a b <;> rfl

theorem order_outcome :
    (c.order a b = .ok none ↔ c.Undecided a b) ∧
      (∀ s, c.order a b = .error (.outOfDecimalRange s) ↔ c.OutOfRange a b s) ∧
      ((∃ r, c.order a b = .ok (some r)) ↔ ¬ c.Undecided a b ∧ ∀ s, ¬ c.OutOfRange a b s) := by
  rw [order_eq_endOrder]
  cases hlast : (c.walk a b).getLast? with
  | none =>
    have hend : ∀ x y, ¬ c.EndsAt a b x y := fun x y h => by
      rw [EndsAt, hlast] at h
      cases h
    have hopen : ¬ c.Undecided a b := fun ⟨x, y, h, _⟩ => hend x y h
    have hfails : ∀ s, ¬ c.OutOfRange a b s := fun s ⟨x, y, h, _⟩ => hend x y h
    exact ⟨⟨nofun, fun h => absurd h hopen⟩, fun s => ⟨nofun, fun h => absurd h (hfails s)⟩,
      fun _ => ⟨hopen, hfails⟩, fun _ => ⟨.eq, rfl⟩⟩
  | some p =>
    obtain ⟨x, y⟩ := p
    have hopen : c.Undecided a b ↔ LeavesOpen c.options x y := by
      refine ⟨fun ⟨u, v, h, hl⟩ => ?_, fun hl => ⟨x, y, hlast, hl⟩⟩
      cases hlast.symm.trans h
      exact hl
    have hfails (s : String) : c.OutOfRange a b s ↔ FailsWith x y s := by
      refine ⟨fun ⟨u, v, h, hf⟩ => ?_, fun hf => ⟨x, y, hlast, hf⟩⟩
      cases hlast.symm.trans h
      exact hf
    simp only [hopen, hfails]
    exact endOrder_settled.outcome

end Comparer

/-! ## operators -/

/-- the operators that compare their operands loosely -/
def BinaryOp.compares : BinaryOp → Bool
  | .equal | .notEqual | .lessThan | .greaterThan | .lessEqual | .greaterEqual => true
  | _ => false

section
variable {c : Comparer} (hm : c.options.nullComparison = .minValue)
include hm

theorem Comparer.order_ne_none (a b : Value) : c.order a b ≠ .ok none := by
  intro h
  obtain ⟨x, y, -, ho⟩ := order_outcome.1.1 h
  rw [LeavesOpen, hm] at ho
  cases ho.1

theorem BinaryOp.apply_ne_null {op : BinaryOp} (hop : op.compares = true) (a b : Value) :
    op.apply (c.suppressing false) a b ≠ .ok .null := by
  have hne := c.order_ne_none hm a b
  have ordered_ne (test : Ordering → Bool) :
      ordered (c.suppressing false) test a b ≠ .ok .null := by
    rw [ordered, Comparer.compare_loud]
    rcases ho : c.order a b with e | _ | r
    · intro h
      cases h
    · exact absurd ho hne
    · intro h
      cases h
  have equated_ne (test : Bool → Bool) : equated (c.suppressing false) test a b ≠ .ok .null := by
    rw [equated, Comparer.equals, Comparer.compare_loud]
    rcases ho : c.order a b with e | _ | r
    · intro h
      cases h
    · exact absurd ho hne
    · intro h
      cases h
  cases op with
  | equal | notEqual => exact equated_ne _
  | lessThan | greaterThan | lessEqual | greaterEqual => exact ordered_ne _
  | _ => cases hop

theorem Evaluator.eval_ne_null (h : Host) (ctx : Context) (l r : Expr) {op : BinaryOp}
    (hop : op.compares = true) (earlier : List Request) :
    ((Evaluator.eval ⟨c.suppressing false, h⟩ ctx (.binary l op r)).run.run earlier).1 ≠
      .ok .null := by
  rw [eval_binary, EvalM.run_bind]
  split
  · next a requests _ =>
    have hright : operate ⟨c.suppressing false, h⟩ op a (eval ⟨c.suppressing false, h⟩ ctx r) =
        eval ⟨c.suppressing false, h⟩ ctx r >>= fun b =>
          EvalM.ofExcept (op.apply (c.suppressing false) a b) := by
      cases op <;> first | rfl | cases hop
    rw [hright, EvalM.run_bind]
    split
    · exact BinaryOp.apply_ne_null hm hop a _
    · nofun
  · nofun

end

theorem Comparer.compare_outcome (c : Comparer) (a b : Value) :
    (((c.suppressing false).compare a b = .ok none ↔ c.Undecided a b) ∧
        (∀ s, (c.suppressing false).compare a b = .error (.outOfDecimalRange s) ↔
          c.OutOfRange a b s) ∧
        ((∃ r, (c.suppressing false).compare a b = .ok (some r)) ↔
          ¬ c.Undecided a b ∧ ∀ s, ¬ c.OutOfRange a b s)) ∧
      (c.suppressing true).compare a b = quiet ((c.suppressing false).compare a b) ∧
      (c.options.nullComparison = .minValue → ∀ h ctx l r op earlier, op.compares = true →
        ((Evaluator.eval ⟨c.suppressing false, h⟩ ctx (.binary l op r)).run.run earlier).1 ≠
          .ok .null) ∧
      ∀ f x y, convertedOrder f x y ≠ none := by
  rw [compare_loud, compare_quiet]
  refine ⟨order_outcome, rfl, fun hm h ctx l r op earlier hop => ?_, convertedOrder_ne_none⟩
  exact Evaluator.eval_ne_null hm h ctx l r hop earlier

/-- behind a pair of nulls, the left one of two texts out of range is named -/
theorem Comparer.compare_outcome_nested :
    let c : Comparer := {}
    let nines : Value := .text "99999999999999999999999999999999"
    let eights : Value := .text "-88888888888888888888888888888888"
    let a : Value := .sequence [.null, .sequence [nines, .null]]
    let b : Value := .sequence [.null, .sequence [eights, .number Decimal.one]]
    c.EndsAt a b nines eights ∧ FailsWith nines eights "99999999999999999999999999999999" ∧
      (c.suppressing false).compare a b =
        .error (.outOfDecimalRange "99999999999999999999999999999999") ∧
      (c.suppressing true).compare a b = .ok none ∧
      (c.options.nullComparison = .minValue ∧ BinaryOp.lessThan.compares = true ∧
        ((Evaluator.eval ⟨c.suppressing false, .standard fun _ => none⟩ .empty
          (.binary (.constant a) .lessThan (.constant b))).run.run []).1 ≠ .ok .null) := by
  intro c nines eights a b
  have hnull : c.order .null .null = .ok (some .eq) := by
    rw [order_of_other (by decide)]
    rfl
  have hfails : FailsWith nines eights "99999999999999999999999999999999" :=
    ⟨by decide, by decide, by decide⟩
  have hnines : c.order nines eights =
      .error (.outOfDecimalRange "99999999999999999999999999999999") := by
    rw [order_of_other (by decide)]
    exact plainOrder_error {} hfails.1 hfails.2.1 (numericOperand_error (by decide))
  have hitems : c.order (.sequence [nines, .null]) (.sequence [eights, .number Decimal.one]) =
      .error (.outOfDecimalRange "99999999999999999999999999999999") := by
    rw [order_of_sequences rfl rfl]
    show compareParts _ _ _ = _
    rw [compareParts_views_cons, hnines]
    rfl
  have hend : c.EndsAt a b nines eights := by
    have houter : c.walk a b = c.walkItems [.null, .sequence [nines, .null]]
        [.null, .sequence [eights, .number Decimal.one]] := walk_of_items rfl rfl rfl
    have hinner : c.walk (.sequence [nines, .null]) (.sequence [eights, .number Decimal.one]) =
        c.walkItems [nines, .null] [eights, .number Decimal.one] := walk_of_items rfl rfl rfl
    have hleaf : c.walk nines eights = [(nines, eights)] := walk_of_other (by decide)
    rw [EndsAt, houter, walkItems_equal _ _ hnull, walkItems_decided _ _ (by rw [hitems]; nofun),
      hinner, walkItems_decided _ _ (by rw [hnines]; nofun), hleaf, List.getLast?_append]
    rfl
  obtain ⟨⟨-, herror, -⟩, hquiet, hnever, -⟩ := c.compare_outcome a b
  have hloud := (herror _).2 ⟨nines, eights, hend, hfails⟩
  rw [hloud] at hquiet
  exact ⟨hend, hfails, hloud, hquiet, rfl, rfl, hnever rfl _ _ _ _ _ _ rfl⟩

end ExprLang
