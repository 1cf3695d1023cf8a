import ExprLang.Engine
import ExprLang.Proofs.Printing.RoundTrip
import ExprLang.Proofs.Semantics.Folding
import ExprLang.Proofs.Value.Formatted

/-!
# Numbers are read as they are shown

Three readers take the text of a decimal.

* Number formats invert what they write, the sign of a zero included: `NumberFormat.parse_format`.
* The comparer reads the display text as the number, but for the sign of a zero, which no order sees:
  `Comparer.order_toText`.
* The parser reads it as `Decimal.literal`, a constant that may be negated, and its value is the
  decimal: `Engine.run_toText`.

`Decimal.toText_read` puts them together.
-/

namespace ExprLang

open Text Value

namespace Decimal

variable (a : Decimal)

theorem spelled_eq_concat (c : Char) : ∃ ds d, a.spelled c = ds ++ [d] ∧ d.isDigit = true := by
  have last {cs : List Char} (h : cs ≠ []) (hd : ∀ d ∈ cs, d.isDigit = true) :
      ∃ ds d, cs = ds ++ [d] ∧ d.isDigit = true :=
    ⟨cs.dropLast, cs.getLast h, (List.dropLast_concat_getLast h).symm, hd _ (List.getLast_mem h)⟩
  rw [spelled]
  split
  · rw [List.append_nil]
    exact last a.whole_ne_nil a.isDigit_of_mem_whole
  · next hs =>
    have hne : a.places ≠ [] := by
      rw [Ne, ← List.length_eq_zero_iff, length_places]
      exact hs
    obtain ⟨ds, d, hd, hdig⟩ := last hne a.isDigit_of_mem_places
    exact ⟨a.whole ++ c :: ds, d, by rw [hd, List.append_assoc, List.cons_append], hdig⟩

theorem trimChars_written (c : Char) : trimChars (a.written c) = a.written c := by
  obtain ⟨d, ds, hcons, hd⟩ := a.spelled_eq_cons c
  obtain ⟨es, e, hconcat, he⟩ := a.spelled_eq_concat c
  apply trimChars_of_ends
  · intro x hx
    rw [written, hcons] at hx
    cases hn : a.negative with
    | true =>
      rw [hn] at hx
      cases hx
      decide
    | false =>
      rw [hn] at hx
      cases hx
      exact isDigit_not_blank hd
  · intro x hx
    rw [written, hconcat, ← List.append_assoc, List.getLast?_concat] at hx
    cases hx
    exact isDigit_not_blank he

theorem trim_toText : trim a.toText = a.toText := by
  rw [trim, toList_toText, toChars_eq_written, trimChars_written, ← toChars_eq_written, toText]

theorem abs_eq_self (h : a.negative = false) : a.abs = a := by
  obtain ⟨negative, mantissa, scale, _, _⟩ := a
  cases h
  rfl

theorem neg_abs (h : a.negative = true) : a.abs.neg = a := by
  obtain ⟨negative, mantissa, scale, _, _⟩ := a
  cases h
  rfl

end Decimal

/-! ## number formats -/

namespace NumberFormat

variable (f : NumberFormat) (a : Decimal)

theorem plain_digits (seen : Bool) {ds : List Char} (h : ∀ c ∈ ds, c.isDigit = true)
    (rest : List Char) : f.plain seen (ds ++ rest) = (f.plain seen rest).map (ds ++ ·) := by
  induction ds with
  | nil => exact Option.map_id'.symm
  | cons d ds ih =>
    rw [List.forall_mem_cons] at h
    rw [List.cons_append, plain, if_pos h.1, ih h.2, Option.map_map]
    rfl

/-- a group separator is met nowhere: a digit, and the decimal separator, are taken for what they
are first -/
theorem plain_spelled (hf : f.decimalSeparator.isDigit = false) :
    f.plain false (a.spelled f.decimalSeparator) = some (a.spelled '.') := by
  rw [Decimal.spelled, Decimal.spelled, plain_digits f false a.isDigit_of_mem_whole]
  by_cases hs : a.scale = 0
  · rw [if_pos hs, if_pos hs, plain]
    rfl
  · have hp : f.plain true a.places = some a.places := by
      rw [← List.append_nil a.places, plain_digits f true a.isDigit_of_mem_places, plain]
      rfl
    rw [if_neg hs, if_neg hs, plain, if_neg (by rw [hf]; exact Bool.false_ne_true),
      if_pos ⟨rfl, rfl⟩, hp]
    rfl

theorem unsigned?_spelled (hf : f.decimalSeparator.isDigit = false) :
    f.unsigned? (a.spelled f.decimalSeparator) = some a.abs := by
  rw [unsigned?, plain_spelled f a hf, Option.bind_some, ← a.toChars_abs]
  exact a.abs.ofDigits?_toChars rfl

theorem parse_format (hf : f.decimalSeparator.isDigit = false) : f.parse (f.format a) = some a := by
  obtain ⟨d, ds, hcons, hd⟩ := a.spelled_eq_cons f.decimalSeparator
  rw [format_eq_written, parse, String.toList_ofList, a.trimChars_written, Decimal.written]
  cases hn : a.negative with
  | true =>
    show (f.unsigned? (a.spelled f.decimalSeparator)).map Decimal.neg = some a
    rw [unsigned?_spelled f a hf, Option.map_some, a.neg_abs hn]
  | false =>
    rw [if_neg Bool.false_ne_true, List.nil_append, hcons]
    -- a digit is no sign
    split
    · next h =>
      cases h
      cases hd
    · next h =>
      cases h
      cases hd
    · rw [← hcons, unsigned?_spelled f a hf, a.abs_eq_self hn]

end NumberFormat

/-! ## comparing -/

theorem Decimal.isDecimalText_toText (a : Decimal) : isDecimalText a.toText = true := by
  rw [toText, toChars_eq_written]
  exact (a.isDecimalText_written (by decide)).2 (.inl rfl)

section
variable (f : NumberFormat) (n : Decimal) {x : Value}

/-- beside anything numeric, also a text that is out of range -/
theorem plainOrder_toText (hx : isNumeric x = true) :
    plainOrder f (.text n.toText) x = plainOrder f (.number n) x ∧
      plainOrder f x (.text n.toText) = plainOrder f x (.number n) := by
  have ht : isNumeric (.text n.toText) = true := n.isDecimalText_toText
  have hn := numericOperand_text n.ofText?_toText
  cases hy : numericOperand x with
  | ok y =>
    rw [plainOrder_numbers f ht hx hn hy, plainOrder_numbers f hx ht hy hn,
      plainOrder_numbers f rfl hx rfl hy, plainOrder_numbers f hx rfl hy rfl,
      Decimal.reading_compare, Decimal.compare_reading]
    exact ⟨rfl, rfl⟩
  | error e =>
    rw [plainOrder_error f hx ht hy, plainOrder_error f hx rfl hy, plainOrder, plainOrder, ht, hx,
      hn, hy]
    exact ⟨rfl, rfl⟩

namespace Comparer

variable {c : Comparer} (hn : ∀ v, isNumeric v = true → c.normalizer.apply v = v)
include hn

theorem order_of_numeric {v w : Value} (hv : isNumeric v = true) (hw : isNumeric w = true) :
    c.order v w = plainOrder c.options.numberFormat v w := by
  have kinds {u : Value} (hu : isNumeric u = true) :
      u.kind ≠ .sequence ∧ u.kind ≠ .null ∧ u.kind ≠ .boolean := by
    rcases kind_of_isNumeric hu with h | h <;> rw [h] <;> decide
  rw [order_of_kept (hn v hv) (hn w hw) fun h => (kinds hv).1 h.1,
    pairOrder_eq_plainOrder c.options (kinds hv).2 (kinds hw).2]

theorem order_toText (hx : isNumeric x = true) :
    c.order (.text n.toText) x = c.order (.number n) x ∧
      c.order x (.text n.toText) = c.order x (.number n) := by
  have ht : isNumeric (.text n.toText) = true := n.isDecimalText_toText
  rw [order_of_numeric hn ht hx, order_of_numeric hn hx ht,
    order_of_numeric (v := .number n) hn rfl hx, order_of_numeric (w := .number n) hn hx rfl]
  exact plainOrder_toText _ n hx

theorem compare_toText (hx : isNumeric x = true) :
    c.compare (.text n.toText) x = c.compare (.number n) x ∧
      c.compare x (.text n.toText) = c.compare x (.number n) := by
  obtain ⟨h, h'⟩ := order_toText n hn hx
  exact ⟨by rw [compare, h, compare], by rw [compare, h', compare]⟩

end Comparer

end

/-! ## evaluating -/

namespace Decimal

variable (a : Decimal)

/-- the expression that the display text is -/
def literal : Expr :=
  if a.negative then .unary .negate (.constant (.number a.abs)) else .constant (.number a)

/-- the nesting of that expression -/
def literalNesting : Nat := if a.negative then 2 else 1

theorem toChars_of_negative (h : a.negative = true) : a.toChars = '-' :: a.abs.toChars := by
  rw [toChars_eq_written, written, h, toChars_abs]
  rfl

theorem spells_toChars (single : Bool) :
    Spells single a.toChars
      (if a.negative then [.operator .subtract, .number a.abs] else [.number a]) [] := by
  have closed : Closed [] := nofun
  cases h : a.negative with
  | true =>
    have minus : Spells single ['-'] [.operator .subtract] (a.abs.toChars ++ []) := by
      refine spells_symbol (binaryOp_mem_symbols .subtract) (.inl ?_)
      cases single <;> decide
    rw [a.toChars_of_negative h]
    exact minus.append (spells_number rfl closed)
  | false => exact spells_number h closed

theorem derives_literal {c n : Nat} (hn : a.literalNesting ≤ n) :
    Derives c n (if a.negative then [.operator .subtract, .number a.abs] else [.number a])
      (.expression a.literal) := by
  rw [literal]
  rw [literalNesting] at hn
  cases h : a.negative with
  | true =>
    rw [h] at hn
    have number : Derives c 0 [.number a.abs] (.unary (.constant (.number a.abs))) :=
      .chain (.primary (.atom (.number _))) (Nat.zero_le c)
    exact (Expr.derives_unary (.unary .negate number)).mono (Nat.le_refl c) hn
  | false =>
    rw [h] at hn
    have number : Derives c 0 [.number a] (.primary (.constant (.number a))) := .atom (.number a)
    exact (Expr.derives_primary number).mono (Nat.le_refl c) hn

theorem eval_literal (ev : Evaluator) (c : Context) : ev.eval c a.literal = pure (.number a) := by
  rw [literal]
  cases h : a.negative with
  | true =>
    rw [if_pos rfl, Evaluator.eval, Evaluator.eval, pure_bind, UnaryOp.apply, a.neg_abs h]
    rfl
  | false =>
    rw [if_neg Bool.false_ne_true, Evaluator.eval]

end Decimal

/-- a text that is cut into tokens is parsed as these are -/
theorem Spells.parse_eq {o : ParseOptions} {cs : List Char} {ks : List TokenKind}
    (h : Spells o.allowSingleEqualSign cs ks []) :
    ∃ ts stop, ts.map Token.kind = ks ∧ stop.kind = .eof ∧
      ExprLang.parse o (String.ofList cs) =
        (parseTokens o (ts ++ [stop])).mapError SyntaxError.parse := by
  obtain ⟨ts, hts, hks⟩ := h 0
  have htok : tokenize o.allowSingleEqualSign (String.ofList cs) =
      .ok (ts ++ [endToken (0 + byteLength cs)]) := by
    rw [tokenize, String.toList_ofList, hts.ok]
  refine ⟨ts, endToken (0 + byteLength cs), hks, rfl, ?_⟩
  rw [ExprLang.parse, htok]
  dsimp only
  cases parseTokens o (ts ++ [endToken (0 + byteLength cs)]) <;> rfl

/-- an expression needs one level of nesting, and two behind a unary operator -/
theorem Parser.nesting_of_reads {p : Parser} {ts rest : List Token} {e : Expr}
    (h : Reads (p.expression 0 ts) e rest) :
    0 < p.maxNesting ∧ ∀ op r, Next (UnaryOp.kind op) ts r → 1 < p.maxNesting := by
  obtain ⟨h0, ht⟩ := p.reads_expression.1 h
  obtain ⟨_, _, hb, -⟩ := p.reads_ternary.1 ht
  obtain ⟨_, _, hu, -⟩ := p.reads_binary.1 hb
  refine ⟨h0, fun op r hn => ?_⟩
  rcases p.reads_unary.1 hu with ⟨hno, -⟩ | ⟨_, _, _, -, h1, -⟩
  · exact absurd hn (hno op r)
  · exact h1

namespace Engine

variable (g : Engine) (n : Decimal)

theorem tree_toText (h : n.literalNesting ≤ g.config.maxNestingDepth) :
    g.tree n.toText = .ok n.literal := by
  obtain ⟨ts, stop, hks, hstop, hparse⟩ :=
    Spells.parse_eq (o := g.config.parseOptions) (n.spells_toChars _)
  rw [tree, Decimal.toText, hparse, Derives.parseTokens_eq (hks ▸ n.derives_literal h) hstop]
  rfl

theorem nesting_of_tree {e : Expr} (h : g.tree n.toText = .ok e) :
    n.literalNesting ≤ g.config.maxNestingDepth := by
  obtain ⟨ts, stop, hks, hstop, hparse⟩ :=
    Spells.parse_eq (o := g.config.parseOptions) (n.spells_toChars _)
  rw [tree, Decimal.toText, hparse] at h
  cases hp : parseTokens g.config.parseOptions (ts ++ [stop]) with
  | error x =>
    rw [hp] at h
    cases h
  | ok e' =>
    rw [parseTokens, Parser.whole_eq_ok] at hp
    obtain ⟨rest, hr, -⟩ := hp
    obtain ⟨h0, h1⟩ := Parser.nesting_of_reads hr
    rw [Decimal.literalNesting]
    cases hn : n.negative with
    | false => exact h0
    | true =>
      rw [hn] at hks
      obtain ⟨t, us, rfl, ht, -⟩ := List.map_eq_cons_iff.1 hks
      exact h1 .negate (us ++ [stop]) ⟨t, rfl, ht⟩

theorem run_toText (c : Context) (earlier : List Request) :
    g.run c n.toText earlier = (.ok (.number n), earlier) ↔
      n.literalNesting ≤ g.config.maxNestingDepth := by
  have hp : g.parse n.toText = (g.tree n.toText).map fun e => ⟨n.toText, e⟩ := by
    rw [parse, n.trim_toText]
  constructor
  · intro h
    cases ht : g.tree n.toText with
    | error x =>
      rw [run, hp, ht] at h
      cases h
    | ok e => exact g.nesting_of_tree n ht
  · intro h
    rw [run, hp, g.tree_toText n h]
    show g.evaluate c n.literal earlier = _
    rw [evaluate, n.eval_literal]
    rfl

end Engine

/-! ## all readers -/

theorem Decimal.toText_read (n : Decimal) :
    (isDecimalText n.toText = true ∧
      (∃ m, ofText? n.toText = some m ∧ m.signed = n.signed ∧ m.scale = n.scale) ∧
      ∀ c : Comparer, (∀ v, isNumeric v = true → c.normalizer.apply v = v) →
        ∀ x, isNumeric x = true →
          c.compare (.text n.toText) x = c.compare (.number n) x ∧
            c.compare x (.text n.toText) = c.compare x (.number n)) ∧
    (∀ (g : Engine) (c : Context) (earlier : List Request),
      g.run c n.toText earlier = (.ok (.number n), earlier) ↔
        (if n.negative then 2 else 1) ≤ g.config.maxNestingDepth) ∧
    ∀ f : NumberFormat, f.decimalSeparator.isDigit = false → f.parse (f.format n) = some n := by
  refine ⟨⟨n.isDecimalText_toText, ?_, ?_⟩, fun g => g.run_toText n, fun f => f.parse_format n⟩
  · exact ⟨_, n.ofText?_toText, n.signed_reading, n.scale_reading⟩
  · exact fun c hn x hx => Comparer.compare_toText n hn hx

/-- a zero keeps its sign and its places, except beside a text -/
theorem Decimal.toText_read_negative_zero :
    let n : Decimal := { negative := true, mantissa := 0, scale := 2 }
    let f : NumberFormat := { decimalSeparator := ',', groupSeparator := some ',' }
    let c : Comparer := { options := { numberFormat := f } }
    let g : Engine := { host := .standard fun _ => none }
    n.toText = "-0.00" ∧ isNumeric (.text "+0") = true ∧
      c.compare (.text "-0.00") (.text "+0") = c.compare (.number n) (.text "+0") ∧
      (if n.negative then 2 else 1) ≤ g.config.maxNestingDepth ∧
      g.run .empty "-0.00" [] = (.ok (.number n), []) ∧
      f.decimalSeparator.isDigit = false ∧ f.parse (f.format n) = some n := by
  intro n f c g
  have ht : n.toText = "-0.00" := by decide +kernel
  have hx : isNumeric (.text "+0") = true := by decide +kernel
  have hd : (if n.negative then 2 else 1) ≤ g.config.maxNestingDepth := by decide
  have hf : f.decimalSeparator.isDigit = false := by decide
  obtain ⟨⟨-, -, hcompare⟩, hrun, hparse⟩ := n.toText_read
  refine ⟨ht, hx, ?_, hd, ?_, hf, hparse f hf⟩
  · exact ht ▸ (hcompare c (fun v _ => rfl) (.text "+0") hx).1
  · exact ht ▸ (hrun g .empty []).2 hd

end ExprLang
