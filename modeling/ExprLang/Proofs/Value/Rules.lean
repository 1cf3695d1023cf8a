import ExprLang.Value.Compare

/-!
# The rules of comparison one by one

What each rule says of the values that it fits, so that no later proof opens the rules themselves.
-/

namespace ExprLang

open Value

section
variable {a b : Value}

theorem isNull_eq_false {v : Value} (h : v.kind ≠ .null) : v.isNull = false := by
  cases v <;> first | rfl | exact absurd rfl h

theorem kind_of_isText {v : Value} (h : isText v = true) : v.kind = .text := by
  cases v <;> first | rfl | cases h

theorem kind_of_isNumeric {v : Value} (h : isNumeric v = true) :
    v.kind = .number ∨ v.kind = .text := by
  cases v <;> first | exact .inl rfl | exact .inr rfl | cases h

theorem pairOrder_of_null (o : ComparerOptions) (h : (a.isNull || b.isNull) = true) :
    pairOrder o a b = .ok (nullOrder o.nullComparison a b) := by
  rw [pairOrder.eq_def, if_pos h]

theorem pairOrder_eq_plainOrder (o : ComparerOptions) (hna : a.kind ≠ .null ∧ a.kind ≠ .boolean)
    (hnb : b.kind ≠ .null ∧ b.kind ≠ .boolean) :
    pairOrder o a b = plainOrder o.numberFormat a b := by
  rw [pairOrder.eq_def, isNull_eq_false hna.1, isNull_eq_false hnb.1, Bool.or_self,
    if_neg Bool.false_ne_true]
  split
  · exact absurd rfl hna.2
  · exact absurd rfl hna.2
  · exact absurd rfl hnb.2
  · rfl

variable (f : NumberFormat)

theorem plainOrder_numbers {x y : Decimal} (ha : isNumeric a = true) (hb : isNumeric b = true)
    (hx : numericOperand a = .ok x) (hy : numericOperand b = .ok y) :
    plainOrder f a b = .ok (some (x.compare y)) := by
  rw [plainOrder, ha, hb, hx, hy]
  rfl

theorem plainOrder_error {e : ComparisonError} (ha : isNumeric a = true) (hb : isNumeric b = true)
    (hx : numericOperand a = .error e) : plainOrder f a b = .error e := by
  rw [plainOrder, ha, hb, hx]
  rfl

theorem plainOrder_texts {s t : String} (hs : Decimal.isDecimalText s = false)
    (ht : Decimal.isDecimalText t = false) :
    plainOrder f (.text s) (.text t) = .ok (some (compare s t)) := by
  have ha : isNumeric (.text s) = false := hs
  have hb : isNumeric (.text t) = false := ht
  rw [plainOrder, ha, hb]
  rfl

theorem plainOrder_number_text (n : Decimal) {s : String} (hs : Decimal.isDecimalText s = false) :
    plainOrder f (.number n) (.text s) = .ok (some (compare (f.format n) s)) ∧
      plainOrder f (.text s) (.number n) = .ok (some (compare s (f.format n))) := by
  have hb : isNumeric (.text s) = false := hs
  constructor
  · rw [plainOrder, hb]
    rfl
  · rw [plainOrder, hb]
    rfl

theorem plainOrder_converted (hn : isNumeric a = false) (ht : isText a = false) :
    plainOrder f a b = .ok (convertedOrder f a b) := by
  rw [plainOrder, hn, ht, Bool.false_and, Bool.false_and, Bool.and_false, Bool.or_self,
    if_neg Bool.false_ne_true, if_neg Bool.false_ne_true]

theorem numericOperand_text {s : String} {x : Decimal} (h : Decimal.ofText? s = some x) :
    numericOperand (.text s) = .ok x := by
  rw [numericOperand, h]

theorem numericOperand_error {s : String} (h : Decimal.ofText? s = none) :
    numericOperand (.text s) = .error (.outOfDecimalRange s) := by
  rw [numericOperand, h]

theorem naturalOrder_eq_none (h : a.kind ≠ b.kind) : naturalOrder a b = none := by
  cases a <;> cases b <;> first | rfl | exact absurd rfl h

end

theorem DateTime.compare_eq_iff {t u : DateTime} : t.compare u = .eq ↔ t = u := by
  rw [DateTime.compare, Ordering.then_eq_eq, Ordering.then_eq_eq, Std.compare_eq_iff_eq,
    Std.compare_eq_iff_eq, Std.compare_eq_iff_eq]
  cases t
  cases u
  simp only [DateTime.mk.injEq]

theorem Duration.compare_eq_iff {d e : Duration} : d.compare e = .eq ↔ d = e := by
  rw [Duration.compare, Std.compare_eq_iff_eq]
  cases d
  cases e
  simp only [Duration.mk.injEq]

end ExprLang
