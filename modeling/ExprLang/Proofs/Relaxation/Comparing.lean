import ExprLang.Eval.Operate
import ExprLang.Proofs.Outcome

/-!
# Comparing under relaxed options

* `ComparerOptions.Under o o'`   the options `o'` differ from `o` in the group separator at most, and
                                 may suppress errors;
* `EvalError.Lifted o o'`        the error of a comparison, which only `o'` suppresses.

A text is only read in a number format to compare it with a number, and that is done by other rules
before (`plainOrder_congr`): so the group separator decides nothing.
-/

set_option linter.unusedSectionVars false

namespace ExprLang

/-! ## number formats -/

section
variable {f f' : NumberFormat} (hf : f.decimalSeparator = f'.decimalSeparator)
include hf

theorem NumberFormat.format_congr (a : Decimal) : f.format a = f'.format a := by
  rw [format, format, hf]

theorem Value.toText_congr (v : Value) : v.toText f = v.toText f' := by
  cases v with
  | number a => exact NumberFormat.format_congr hf a
  | _ => rfl

/-- no text is read as a number -/
theorem Value.convertTo_congr {v : Value} {k : Value.Kind} (h : isText v = true → k ≠ .number) :
    v.convertTo f k = v.convertTo f' k := by
  unfold convertTo
  split
  · rfl
  · split
    · exact absurd rfl (h rfl)
    · rfl
    · rfl
    · rfl
    · rw [NumberFormat.format_congr hf]
    all_goals rfl

theorem plainOrder_congr (a b : Value) : plainOrder f a b = plainOrder f' a b := by
  have isNumeric_of_kind {v : Value} (h : v.kind = .number) : isNumeric v = true := by
    cases v <;> cases h
    rfl
  rw [plainOrder, plainOrder, Value.toText_congr hf, Value.toText_congr hf]
  split
  · rfl
  · split
    · rfl
    · next h =>
      rw [Bool.or_eq_true, Bool.and_eq_true, Bool.and_eq_true, not_or, not_and, not_and] at h
      rw [convertedOrder, convertedOrder,
        Value.convertTo_congr hf fun hb hk => h.1 (isNumeric_of_kind hk) hb,
        Value.convertTo_congr hf fun ha hk => h.2 (isNumeric_of_kind hk) ha]

end

/-! ## comparisons -/

structure ComparerOptions.Under (o o' : ComparerOptions) : Prop where
  nullComparison : o.nullComparison = o'.nullComparison
  decimalSeparator : o.numberFormat.decimalSeparator = o'.numberFormat.decimalSeparator
  suppress : o.suppressErrors = true → o'.suppressErrors = true

section
variable {o o' : ComparerOptions} (h : o.Under o')
include h

theorem pairOrder_congr (a b : Value) : pairOrder o a b = pairOrder o' a b := by
  unfold pairOrder
  simp only [h.nullComparison, plainOrder_congr h.decimalSeparator]

mutual

theorem View.compare_congr (a b : View) : a.compare o b = a.compare o' b := by
  cases a with
  | leaf v => exact pairOrder_congr h v b.value
  | branch items as =>
    cases b with
    | leaf v => exact pairOrder_congr h (.sequence items) v
    | branch items' bs =>
      rw [View.compare, View.compare, compareParts_congr as bs]

theorem compareParts_congr (as bs : List View) : compareParts o as bs = compareParts o' as bs := by
  cases as with
  | nil => cases bs <;> rfl
  | cons a as =>
    cases bs with
    | nil => rfl
    | cons b bs => rw [compareParts, compareParts, View.compare_congr a b, compareParts_congr as bs]

end

theorem Comparer.order_congr (n : Normalizer) (a b : Value) :
    Comparer.order ⟨o, n⟩ a b = Comparer.order ⟨o', n⟩ a b :=
  View.compare_congr h _ _

theorem Comparer.compare_below (n : Normalizer) (a b : Value) :
    Below (fun _ => o.suppressErrors ≠ o'.suppressErrors) (Comparer.compare ⟨o, n⟩ a b)
      (Comparer.compare ⟨o', n⟩ a b) := by
  rw [Comparer.compare, Comparer.compare, order_congr h]
  split
  · exact .refl _
  · by_cases hs : o.suppressErrors = o'.suppressErrors
    · exact .of_eq (by rw [hs])
    · cases hf : o.suppressErrors with
      | true => exact absurd (hf.trans (h.suppress hf).symm) hs
      | false => exact .error (fun h => hs (hf.trans h))

end

/-! ## operators -/

def EvalError.Lifted (o o' : ComparerOptions) : EvalError → Prop
  | .comparison _ => o.suppressErrors ≠ o'.suppressErrors
  | _ => False

namespace BinaryOp

variable {o o' : ComparerOptions} (h : o.Under o') (n : Normalizer)
include h

theorem sum_congr (a b : Value) : sum o'.numberFormat a b = sum o.numberFormat a b := by
  unfold sum concat
  simp only [Value.toText_congr h.decimalSeparator]

theorem ordered_below (test : Ordering → Bool) (a b : Value) :
    Below (EvalError.Lifted o o') (ordered ⟨o, n⟩ test a b) (ordered ⟨o', n⟩ test a b) := by
  rw [ordered, ordered]
  rcases Comparer.compare_below h n a b with ⟨e, he, hl⟩ | hc
  · rw [he]
    exact .error hl
  · rw [hc]
    exact .refl _

theorem equated_below (test : Bool → Bool) (a b : Value) :
    Below (EvalError.Lifted o o') (equated ⟨o, n⟩ test a b) (equated ⟨o', n⟩ test a b) := by
  rw [equated, equated, Comparer.equals, Comparer.equals]
  rcases Comparer.compare_below h n a b with ⟨e, he, hl⟩ | hc
  · rw [he]
    exact .error hl
  · rw [hc]
    exact .refl _

theorem apply_below (op : BinaryOp) (a b : Value) :
    Below (EvalError.Lifted o o') (op.apply ⟨o, n⟩ a b) (op.apply ⟨o', n⟩ a b) := by
  cases op with
  | add => exact .of_eq (sum_congr h a b)
  | equal | notEqual => exact equated_below h n _ a b
  | lessThan | greaterThan | lessEqual | greaterEqual => exact ordered_below h n _ a b
  | _ => exact .refl _

end BinaryOp

end ExprLang
