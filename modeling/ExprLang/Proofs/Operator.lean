import ExprLang.Eval.Operate
import ExprLang.Proofs.Member

/-!
# Operators give plain values

Whatever the operands are, no operator gives a value that holds other values: `UnaryOp.apply_plain`,
`BinaryOp.apply_plain`.
-/

namespace ExprLang

open Value

theorem UnaryOp.apply_plain (op : UnaryOp) (v : Value) : Yields IsPlain (op.apply v) := by
  unfold apply
  split
  · exact .ok rfl
  · exact .ok rfl
  · exact .ok rfl
  · exact .error _

namespace BinaryOp

theorem orOverflow_plain {α : Type} (op : BinaryOp) (o : Option α) {f : α → Value}
    (h : ∀ a, IsPlain (f a)) : Yields IsPlain (orOverflow op (o.map f)) := by
  cases o with
  | none => exact .error _
  | some a => exact .ok (h a)

theorem truth_plain (b : Option Bool) : IsPlain (truth b) := by
  cases b <;> rfl

theorem sum_plain (f : NumberFormat) (a b : Value) : Yields IsPlain (sum f a b) := by
  unfold sum
  split
  · exact orOverflow_plain _ _ fun _ => rfl
  · exact .ok rfl
  · exact .ok rfl
  · exact orOverflow_plain _ _ fun _ => rfl
  · exact orOverflow_plain _ _ fun _ => rfl
  · exact orOverflow_plain _ _ fun _ => rfl
  · exact .error _

theorem difference_plain (a b : Value) : Yields IsPlain (difference a b) := by
  unfold difference
  split
  · exact orOverflow_plain _ _ fun _ => rfl
  · exact .ok rfl
  · exact orOverflow_plain _ _ fun _ => rfl
  · exact orOverflow_plain _ _ fun _ => rfl
  · exact .error _

theorem product_plain (a b : Value) : Yields IsPlain (product a b) := by
  unfold product
  split
  · exact orOverflow_plain _ _ fun _ => rfl
  · exact .error _

theorem quotient_plain (a b : Value) : Yields IsPlain (quotient a b) := by
  unfold quotient
  split
  · split
    · exact .error _
    · exact orOverflow_plain _ _ fun _ => rfl
  · exact .error _

theorem remainder_plain (a b : Value) : Yields IsPlain (remainder a b) := by
  unfold remainder
  split
  · split
    · exact .error _
    · exact orOverflow_plain _ _ fun _ => rfl
  · exact .error _

theorem ordered_plain (c : Comparer) (test : Ordering → Bool) (a b : Value) :
    Yields IsPlain (ordered c test a b) := by
  unfold ordered
  split
  · exact .ok (truth_plain _)
  · exact .error _

theorem equated_plain (c : Comparer) (test : Bool → Bool) (a b : Value) :
    Yields IsPlain (equated c test a b) := by
  unfold equated
  split
  · exact .ok (truth_plain _)
  · exact .error _

theorem apply_plain (c : Comparer) (op : BinaryOp) (a b : Value) :
    Yields IsPlain (op.apply c a b) := by
  cases op with
  | add => exact sum_plain _ a b
  | subtract => exact difference_plain a b
  | multiply => exact product_plain a b
  | divide => exact quotient_plain a b
  | modulo => exact remainder_plain a b
  | equal => exact equated_plain c _ a b
  | notEqual => exact equated_plain c _ a b
  | lessThan => exact ordered_plain c _ a b
  | greaterThan => exact ordered_plain c _ a b
  | lessEqual => exact ordered_plain c _ a b
  | greaterEqual => exact ordered_plain c _ a b
  | strictEqual | strictNotEqual | and | or => exact .ok rfl

end BinaryOp

end ExprLang
