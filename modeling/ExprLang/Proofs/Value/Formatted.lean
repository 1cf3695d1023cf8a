import ExprLang.Proofs.Decimal.Order
import ExprLang.Proofs.Decimal.Reading
import ExprLang.Proofs.Value.Antisymmetry

/-!
# Numbers beside texts in a number format

* `NumberFormat.Keeps f a`           `f` writes the decimal as it is displayed;
* `NumberFormat.besideText f n m`    the order of the number `n` and the text that `f` writes of `m`.

Which texts look like numbers does not depend on the format: of those that it writes only the ones
with a point, or without places, do (`isDecimalText_format`).  These are compared as numbers, the
others as texts, with what the format writes of the number beside them (`plainOrder_formatted`).
-/

namespace ExprLang

open Value

namespace NumberFormat

variable (f : NumberFormat) (a : Decimal)

/-! ## what a format writes -/

theorem map_separator {cs : List Char} (h : ∀ c ∈ cs, c.isDigit = true) :
    (cs.map fun c => if c = '.' then f.decimalSeparator else c) = cs := by
  refine (List.map_congr_left fun c hc => if_neg ?_).trans (List.map_id' cs)
  rintro rfl
  cases h '.' hc

theorem format_eq_written : f.format a = String.ofList (a.written f.decimalSeparator) := by
  have hsign : ((if a.negative then ['-'] else []).map
      fun c => if c = '.' then f.decimalSeparator else c) = if a.negative then ['-'] else [] := by
    cases a.negative <;> rfl
  rw [format, Decimal.toChars_eq_written, Decimal.written, Decimal.spelled, List.map_append,
    List.map_append, hsign, map_separator f a.isDigit_of_mem_whole, Decimal.written,
    Decimal.spelled]
  by_cases hs : a.scale = 0
  · rw [if_pos hs, if_pos hs]
    rfl
  · rw [if_neg hs, if_neg hs, List.map_cons, map_separator f a.isDigit_of_mem_places]
    rfl

def Keeps : Prop := f.decimalSeparator = '.' ∨ a.scale = 0

instance : Decidable (f.Keeps a) := inferInstanceAs (Decidable (_ ∨ _))

variable {f a}

theorem format_of_keeps (h : f.Keeps a) : f.format a = a.toText := by
  rw [format_eq_written, Decimal.toText, Decimal.toChars_eq_written]
  rcases h with h | h
  · rw [h]
  · rw [Decimal.written, Decimal.written, Decimal.spelled, Decimal.spelled, if_pos h, if_pos h]

theorem isDecimalText_format (hf : f.decimalSeparator.isDigit = false) :
    Decimal.isDecimalText (f.format a) = true ↔ f.Keeps a := by
  rw [format_eq_written]
  exact a.isDecimalText_written hf

end NumberFormat

/-! ## comparing -/

namespace Decimal

/-- reading a display text does not change the number -/
theorem signed_reading (a : Decimal) : (if a.isZero then a.abs else a).signed = a.signed := by
  by_cases hz : a.isZero = true
  · have hm : a.mantissa = 0 := beq_iff_eq.1 hz
    rw [if_pos hz]
    cases h : a.negative <;> simp [abs, signed, h, hm]
  · rw [if_neg hz]

theorem scale_reading (a : Decimal) : (if a.isZero then a.abs else a).scale = a.scale := by
  split <;> rfl

theorem compare_reading (n m : Decimal) :
    n.compare (if m.isZero then m.abs else m) = n.compare m := by
  rw [compare, compare, signedAt, signedAt, signedAt, signedAt, signed_reading, scale_reading]

theorem reading_compare (n m : Decimal) :
    (if n.isZero then n.abs else n).compare m = n.compare m := by
  rw [compare, compare, signedAt, signedAt, signedAt, signedAt, signed_reading, scale_reading]

end Decimal

def NumberFormat.besideText (f : NumberFormat) (n m : Decimal) : Ordering :=
  if f.Keeps m then n.compare m else compare (f.format n) (f.format m)

theorem plainOrder_formatted {f : NumberFormat} (hf : f.decimalSeparator.isDigit = false)
    (n m : Decimal) :
    plainOrder f (.number n) (.text (f.format m)) = .ok (some (f.besideText n m)) := by
  by_cases h : f.Keeps m
  · have hm : isNumeric (.text (f.format m)) = true := (NumberFormat.isDecimalText_format hf).2 h
    have hx := numericOperand_text m.ofText?_toText
    rw [← NumberFormat.format_of_keeps h] at hx
    rw [plainOrder_numbers f rfl hm rfl hx, Decimal.compare_reading, NumberFormat.besideText,
      if_pos h]
  · have hm : Decimal.isDecimalText (f.format m) = false :=
      Bool.eq_false_iff.2 fun hm => h ((NumberFormat.isDecimalText_format hf).1 hm)
    rw [(plainOrder_number_text f n hm).1, NumberFormat.besideText, if_neg h]

namespace Comparer

variable {c : Comparer} (hn : ∀ v : Value, v.kind.isHost = false → c.normalizer.apply v = v)
  (hf : c.options.numberFormat.decimalSeparator.isDigit = false) (n m : Decimal)
include hn hf

theorem order_formatted :
    let t : Value := .text (c.options.numberFormat.format m)
    c.order (.number n) t = .ok (some (c.options.numberFormat.besideText n m)) ∧
      c.order t (.number n) = .ok (some (c.options.numberFormat.besideText n m).swap) := by
  intro t
  have hnum : c.normalizer.apply (.number n) = .number n := hn _ rfl
  have ht : c.normalizer.apply t = t := hn _ rfl
  have hpair : pairOrder c.options (.number n) t =
      .ok (some (c.options.numberFormat.besideText n m)) := by
    have hkn : Kind.number ≠ .null ∧ Kind.number ≠ .boolean := by decide
    have hkt : Kind.text ≠ .null ∧ Kind.text ≠ .boolean := by decide
    exact (pairOrder_eq_plainOrder (a := .number n) (b := t) c.options hkn hkt).trans
      (plainOrder_formatted hf n m)
  have hswap : Reversed (pairOrder c.options (.number n) t) (pairOrder c.options t (.number n)) :=
    pairOrder_reversed c.options (.plain rfl nofun) (.plain rfl nofun) rfl
  rw [order_of_kept hnum ht (fun h => nomatch h.1),
    order_of_kept ht hnum (fun h => nomatch h.1)]
  refine ⟨hpair, ?_⟩
  rw [hpair] at hswap
  rcases hswap.cases with ⟨o, ho, h⟩ | ⟨e, e', he, h⟩
  · cases ho
    exact h
  · cases he

end Comparer

theorem Comparer.compare_formatted (c : Comparer)
    (hn : ∀ v : Value, v.kind.isHost = false → c.normalizer.apply v = v)
    (hf : c.options.numberFormat.decimalSeparator.isDigit = false) (n m : Decimal) :
    let f := c.options.numberFormat
    let t : Value := .text (f.format m)
    (f.decimalSeparator = '.' ∨ m.scale = 0 →
      c.compare (.number n) t = .ok (some (n.compare m)) ∧
        c.compare t (.number n) = .ok (some (n.compare m).swap)) ∧
      (¬ (f.decimalSeparator = '.' ∨ m.scale = 0) →
        c.compare (.number n) t = .ok (some (Ord.compare (f.format n) (f.format m))) ∧
          c.compare t (.number n) = .ok (some (Ord.compare (f.format n) (f.format m)).swap)) := by
  intro f t
  obtain ⟨h, h'⟩ := order_formatted hn hf n m
  rw [compare, compare, h, h']
  constructor
  · intro hk
    have hb : f.besideText n m = n.compare m := if_pos hk
    exact ⟨congrArg (Except.ok ∘ some) hb, congrArg (Except.ok ∘ some ∘ Ordering.swap) hb⟩
  · intro hk
    have hb : f.besideText n m = Ord.compare (f.format n) (f.format m) := if_neg hk
    exact ⟨congrArg (Except.ok ∘ some) hb, congrArg (Except.ok ∘ some ∘ Ordering.swap) hb⟩

/-- with a comma before the places, a number is below one without places as a number, but above one
with places as a text -/
theorem Comparer.compare_formatted_comma :
    let f : NumberFormat := { decimalSeparator := ',', groupSeparator := some '.' }
    let c : Comparer := { options := { numberFormat := f } }
    let n : Decimal := { negative := false, mantissa := 95, scale := 1 }
    let m : Decimal := { negative := false, mantissa := 10, scale := 0 }
    let k : Decimal := { negative := false, mantissa := 10000, scale := 3 }
    (∀ v : Value, v.kind.isHost = false → c.normalizer.apply v = v) ∧
      c.options.numberFormat.decimalSeparator.isDigit = false ∧
      c.compare (.number n) (.text (f.format m)) = .ok (some .lt) ∧
      c.compare (.number n) (.text (f.format k)) = .ok (some .gt) := by
  intro f c n m k
  have hn : ∀ v : Value, v.kind.isHost = false → c.normalizer.apply v = v := fun v _ => rfl
  have hf : c.options.numberFormat.decimalSeparator.isDigit = false := by decide
  have hm : n.compare m = .lt := by decide
  have hk : Ord.compare (f.format n) (f.format k) = .gt := by decide +kernel
  refine ⟨hn, hf, ?_, ?_⟩
  · exact hm ▸ ((c.compare_formatted hn hf n m).1 (.inr rfl)).1
  · exact hk ▸ ((c.compare_formatted hn hf n k).2 (by decide)).1

/-- ten is above nine and a half, but its text is below `9,5` -/
theorem Comparer.compare_comma_places :
    let f : NumberFormat := { decimalSeparator := ',', groupSeparator := some '.' }
    let c : Comparer := { options := { numberFormat := f } }
    let n : Decimal := { negative := false, mantissa := 10, scale := 0 }
    let m : Decimal := { negative := false, mantissa := 95, scale := 1 }
    (f.decimalSeparator.isDigit = false ∧ f.decimalSeparator ≠ '+' ∧ f.decimalSeparator ≠ '-' ∧
        Text.isBlank f.decimalSeparator = false) ∧
      n.compare m = .gt ∧ c.compare (.number n) (.text (f.format m)) = .ok (some .lt) ∧
      c.compare (.text (f.format m)) (.number n) = .ok (some .gt) := by
  intro f c n m
  have hf : c.options.numberFormat.decimalSeparator.isDigit = false := by decide
  have hb : f.besideText n m = .lt := by decide +kernel
  have h := order_formatted (c := c) (fun v _ => rfl) hf n m
  refine ⟨by decide, by decide, ?_, ?_⟩
  · rw [compare, h.1, hb]
  · rw [compare, h.2, hb]
    rfl

end ExprLang
