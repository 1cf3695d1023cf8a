import ExprLang.Proofs.Grammar.Exactness
import ExprLang.Proofs.Printing.Spelling

/-!
# What is written is read back

A printable expression is cut into its tokens (`Printable.spells`), and these derive the expression
with limits no greater than their number (`Printable.derivesShort`).  Both are by induction on the
tree.  `parse_print`: so the parser gives the tree back that was written.
-/

namespace ExprLang

/-! ## its tokens -/

variable {single : Bool}

theorem spells_literal {v : Value} {rest : List Char} (h : v.IsLiteral) (hr : Closed rest) :
    Spells single v.written [v.token] rest := by
  cases v with
  | null =>
    have hnull : ("null", TokenKind.null) ∈ keywords := by decide
    exact spells_keyword hnull hr.nameEnds
  | boolean b =>
    have hbool : ((Value.boolean b).display, TokenKind.boolean b) ∈ keywords := by
      cases b <;> decide
    exact spells_keyword hbool hr.nameEnds
  | number a =>
    have hn : Spells single a.toChars [.number a] rest := spells_number h hr
    rwa [← a.toList_toText] at hn
  | text s => exact spells_text s
  | _ => exact h.elim

/-- a text that is written in front of anything that closes it -/
def SpellsClosed (single : Bool) (cs : List Char) (ks : List TokenKind) : Prop :=
  ∀ rest, Closed rest → Spells single cs ks rest

theorem SpellsClosed.grouped {cs rest : List Char} {ks : List TokenKind}
    (h : SpellsClosed single cs ks) : Spells single (grouped cs) (groupedKinds ks) rest :=
  .mark (by decide) ((h _ (closed_cons (by decide))).append (.mark (by decide) .nil))

namespace Expr

theorem spells_items {es : List Expr} (h : ∀ e ∈ es, SpellsClosed single e.written e.kinds) :
    SpellsClosed single (writtenItems es) (kindsOfItems es) := by
  intro rest hr
  induction es with
  | nil =>
    rw [writtenItems, kindsOfItems]
    exact .nil
  | cons e es ih =>
    rw [List.forall_mem_cons] at h
    cases es with
    | nil =>
      rw [writtenItems, kindsOfItems]
      exact h.1 rest hr
    | cons f es =>
      rw [writtenItems, kindsOfItems]
      exact (h.1 _ (closed_cons (by decide))).append (.mark (by decide) (ih h.2))

theorem spells_entries {ps : List (Expr × Expr)}
    (hk : ∀ p ∈ ps, SpellsClosed single p.1.written p.1.kinds)
    (hv : ∀ p ∈ ps, SpellsClosed single p.2.written p.2.kinds) :
    SpellsClosed single (writtenEntries ps) (kindsOfEntries ps) := by
  intro rest hr
  induction ps with
  | nil =>
    rw [writtenEntries, kindsOfEntries]
    exact .nil
  | cons p ps ih =>
    obtain ⟨k, v⟩ := p
    rw [List.forall_mem_cons] at hk hv
    cases ps with
    | nil =>
      rw [writtenEntries, kindsOfEntries]
      refine .mark (by decide) ((hk.1 _ (closed_cons (by decide))).append (.mark (by decide) ?_))
      exact (hv.1 _ (closed_cons (by decide))).append (.mark (by decide) .nil)
    | cons q ps =>
      rw [writtenEntries, kindsOfEntries]
      refine .mark (by decide) ((hk.1 _ (closed_cons (by decide))).append (.mark (by decide) ?_))
      exact (hv.1 _ (closed_cons (by decide))).append
        (.mark (by decide) (.mark (by decide) (ih hk.2 hv.2)))

theorem Printable.spells {e : Expr} (h : e.Printable) : SpellsClosed single e.written e.kinds := by
  induction h with
  | constant hv =>
    intro rest hr
    rw [written, kinds]
    exact spells_literal hv hr
  | var hn =>
    intro rest hr
    rw [written, kinds]
    exact spells_identifier hn hr.nameEnds
  | @unary op e _ ih =>
    intro rest hr
    rw [written, kinds]
    exact spells_operator (unaryOp_mem_symbols op) ih.grouped
  | @binary l op r _ _ ihl ihr =>
    intro rest hr
    rw [written, kinds]
    exact ihl.grouped.append (spells_operator (binaryOp_mem_symbols op) ihr.grouped)
  | conditional _ _ _ ihq iht ihf =>
    intro rest hr
    rw [written, kinds]
    exact ihq.grouped.append (.mark (by decide)
      (iht.grouped.append (.mark (by decide) ihf.grouped)))
  | member _ hn ih =>
    intro rest hr
    rw [written, kinds]
    exact ih.grouped.append (.mark (by decide) (spells_identifier hn hr.nameEnds))
  | index _ _ iht ihk =>
    intro rest hr
    rw [written, kinds]
    exact iht.grouped.append (.mark (by decide)
      ((ihk _ (closed_cons (by decide))).append (.mark (by decide) .nil)))
  | call _ _ iht ihargs =>
    intro rest hr
    rw [written, kinds]
    exact iht.grouped.append (.mark (by decide)
      ((spells_items ihargs _ (closed_cons (by decide))).append (.mark (by decide) .nil)))
  | array _ ih =>
    intro rest hr
    rw [written, kinds]
    refine .append (spells_keyword (by decide) (nameEnds_cons (by decide)))
      (.mark (by decide) (.mark (by decide) (.mark (by decide) ?_)))
    exact (spells_items ih _ (closed_cons (by decide))).append (.mark (by decide) .nil)
  | dictionary _ _ ihk ihv =>
    intro rest hr
    rw [written, kinds]
    refine .append (spells_keyword (by decide) (nameEnds_cons (by decide))) (.blank (by decide)
      (.append (spells_keyword (by decide) (nameEnds_cons (by decide))) (.mark (by decide) ?_)))
    exact (spells_entries ihk ihv _ (closed_cons (by decide))).append (.mark (by decide) .nil)

/-! ## its derivation -/

/-- tokens that derive an expression, with limits no greater than their number -/
def DerivesShort (ks : List TokenKind) (e : Expr) : Prop :=
  ∀ c n, ks.length ≤ c → ks.length ≤ n → Derives c n ks (.expression e)

section
variable {c n : Nat} {ks : List TokenKind} {e : Expr}

theorem length_groupedKinds (ks : List TokenKind) :
    (groupedKinds ks).length = ks.length + 2 := by
  rw [groupedKinds, List.length_cons, List.length_append, List.length_singleton]

theorem DerivesShort.grouped (h : DerivesShort ks e) (hc : ks.length ≤ c) (hn : ks.length ≤ n) :
    Derives c n (groupedKinds ks) (.primary e) :=
  .group (h c n hc hn)

theorem derives_operand {k : Nat} (hk : k ≤ 7) (h : Derives c n ks (.primary e)) :
    Derives c n ks (.binary k 0 e) :=
  .lower (.operand (.chain (.primary h) (Nat.zero_le c))) hk

theorem derives_unary (h : Derives c n ks (.unary e)) : Derives c (n + 1) ks (.expression e) :=
  .expression (.plain (.lower (.operand h) (by decide)) (Nat.zero_le c))

theorem derives_primary (h : Derives c n ks (.primary e)) :
    Derives c (n + 1) ks (.expression e) :=
  derives_unary (.chain (.primary h) (Nat.zero_le c))

/-- a trailer behind a primary is one link -/
theorem derives_trailer (h : Derives c n ks (.chain 1 e)) (hc : 1 ≤ c) :
    Derives c (n + 1) ks (.expression e) :=
  derives_unary (.chain h hc)

theorem derives_items {es : List Expr} (h : ∀ e ∈ es, DerivesShort e.kinds e)
    (hc : (kindsOfItems es).length ≤ c) (hn : (kindsOfItems es).length ≤ n) :
    Derives c n (kindsOfItems es) (.items es) := by
  induction es with
  | nil =>
    rw [kindsOfItems]
    exact .noItems
  | cons e es ih =>
    rw [List.forall_mem_cons] at h
    cases es with
    | nil =>
      rw [kindsOfItems] at hc hn ⊢
      exact .lastItem (h.1 c n hc hn)
    | cons f es =>
      rw [kindsOfItems] at hc hn ⊢
      simp only [List.length_append, List.length_cons] at hc hn
      exact .moreItems (h.1 c n (by omega) (by omega)) (ih h.2 (by omega) (by omega)) nofun

theorem derives_entries {ps : List (Expr × Expr)} (hk : ∀ p ∈ ps, DerivesShort p.1.kinds p.1)
    (hv : ∀ p ∈ ps, DerivesShort p.2.kinds p.2) (hc : (kindsOfEntries ps).length ≤ c)
    (hn : (kindsOfEntries ps).length ≤ n) :
    Derives c n (kindsOfEntries ps) (.entries ps) := by
  induction ps with
  | nil =>
    rw [kindsOfEntries]
    exact .noEntries
  | cons p ps ih =>
    obtain ⟨k, v⟩ := p
    obtain ⟨hkey, hk⟩ := List.forall_mem_cons.1 hk
    obtain ⟨hval, hv⟩ := List.forall_mem_cons.1 hv
    dsimp only at hkey hval
    cases ps with
    | nil =>
      rw [kindsOfEntries] at hc hn ⊢
      simp only [List.length_append, List.length_cons] at hc hn
      exact .lastEntry (hkey c n (by omega) (by omega)) (hval c n (by omega) (by omega))
    | cons q ps =>
      rw [kindsOfEntries] at hc hn ⊢
      simp only [List.length_append, List.length_cons] at hc hn
      exact .moreEntries (hkey c n (by omega) (by omega)) (hval c n (by omega) (by omega))
        (ih hk hv (by omega) (by omega)) nofun

end

theorem derives_literal {v : Value} (h : v.IsLiteral) : Atom v.token (.constant v) := by
  cases v with
  | null => exact .null
  | boolean b => exact .boolean b
  | number a => exact .number a
  | text s => exact .string s
  | _ => exact h.elim

theorem Printable.derivesShort {e : Expr} (h : e.Printable) : DerivesShort e.kinds e := by
  induction h with
  | constant hv =>
    intro c n _ hn
    rw [kinds] at hn ⊢
    obtain ⟨m, rfl⟩ : ∃ m, n = m + 1 := ⟨n - 1, (Nat.sub_add_cancel hn).symm⟩
    exact derives_primary (.atom (derives_literal hv))
  | var hname =>
    intro c n _ hn
    rw [kinds] at hn ⊢
    obtain ⟨m, rfl⟩ : ∃ m, n = m + 1 := ⟨n - 1, (Nat.sub_add_cancel hn).symm⟩
    exact derives_primary (.atom (.variable _))
  | @unary op e _ ih =>
    intro c n hc hn
    rw [kinds] at hc hn ⊢
    simp only [List.length_cons, length_groupedKinds] at hc hn
    obtain ⟨m, rfl⟩ : ∃ m, n = m + 2 := ⟨n - 2, by omega⟩
    exact derives_unary (.unary op (.chain (.primary (ih.grouped (by omega) (by omega)))
      (Nat.zero_le c)))
  | @binary l op r _ _ ihl ihr =>
    intro c n hc hn
    rw [kinds] at hc hn ⊢
    simp only [List.length_append, List.length_cons, length_groupedKinds] at hc hn
    obtain ⟨m, rfl⟩ : ∃ m, n = m + 1 := ⟨n - 1, by omega⟩
    have hp := op.precedence_le
    have hb := Derives.link op rfl
      (derives_operand (by omega) (ihl.grouped (c := c) (n := m) (by omega) (by omega)))
      (derives_operand (by omega) (ihr.grouped (by omega) (by omega))) (Nat.zero_le c)
    exact .expression (.plain (hb.lower op.precedence_pos) (by omega))
  | conditional _ _ _ ihq iht ihf =>
    intro c n hc hn
    rw [kinds] at hc hn ⊢
    simp only [List.length_append, List.length_cons, length_groupedKinds] at hc hn
    obtain ⟨m, rfl⟩ : ∃ m, n = m + 2 := ⟨n - 2, by omega⟩
    exact .expression (.conditional
      (derives_operand (by decide) (ihq.grouped (by omega) (by omega))) (Nat.zero_le c)
      (derives_primary (iht.grouped (by omega) (by omega)))
      (derives_primary (ihf.grouped (by omega) (by omega))))
  | member _ hname ih =>
    intro c n hc hn
    rw [kinds] at hc hn ⊢
    simp only [List.length_append, List.length_cons, length_groupedKinds] at hc hn
    obtain ⟨m, rfl⟩ : ∃ m, n = m + 1 := ⟨n - 1, by omega⟩
    exact derives_trailer (.member _ (.primary (ih.grouped (by omega) (by omega)))) (by omega)
  | index _ _ iht ihk =>
    intro c n hc hn
    rw [kinds] at hc hn ⊢
    simp only [List.length_append, List.length_cons, length_groupedKinds] at hc hn
    obtain ⟨m, rfl⟩ : ∃ m, n = m + 1 := ⟨n - 1, by omega⟩
    exact derives_trailer (.index (.primary (iht.grouped (by omega) (by omega)))
      (ihk c m (by omega) (by omega))) (by omega)
  | call _ _ iht ihargs =>
    intro c n hc hn
    rw [kinds] at hc hn ⊢
    simp only [List.length_append, List.length_cons, length_groupedKinds] at hc hn
    obtain ⟨m, rfl⟩ : ∃ m, n = m + 1 := ⟨n - 1, by omega⟩
    exact derives_trailer (.call (.primary (iht.grouped (by omega) (by omega)))
      (derives_items ihargs (by omega) (by omega))) (by omega)
  | array _ ih =>
    intro c n hc hn
    rw [kinds] at hc hn ⊢
    simp only [List.length_append, List.length_cons] at hc hn
    obtain ⟨m, rfl⟩ : ∃ m, n = m + 1 := ⟨n - 1, by omega⟩
    exact derives_primary (.array (derives_items ih (by omega) (by omega)))
  | dictionary _ _ ihk ihv =>
    intro c n hc hn
    rw [kinds] at hc hn ⊢
    simp only [List.length_append, List.length_cons] at hc hn
    obtain ⟨m, rfl⟩ : ∃ m, n = m + 1 := ⟨n - 1, by omega⟩
    exact derives_primary (.dictionary (derives_entries ihk ihv (by omega) (by omega)))

end Expr

/-! ## the parser -/

theorem parse_print (single : Bool) {e : Expr} (h : e.Printable) :
    ∃ ts, tokenize single e.print = .ok (ts ++ [endToken (Text.byteLength e.print.toList)]) ∧
      ∀ depth chain, ts.length ≤ depth → ts.length ≤ chain →
        parse ⟨single, depth, chain⟩ e.print = .ok e := by
  have hw : Spells single e.written e.kinds [] := h.spells [] nofun
  obtain ⟨ts, hts, hk⟩ := hw 0
  have htok : tokenize single e.print =
      .ok (ts ++ [endToken (Text.byteLength e.print.toList)]) := by
    rw [tokenize, Expr.print, String.toList_ofList, hts.ok, Nat.zero_add]
  refine ⟨ts, htok, fun depth chain hd hc => ?_⟩
  have hlen : e.kinds.length = ts.length := by rw [← hk, List.length_map]
  have hder : Derives chain depth (ts.map Token.kind) (.expression e) := by
    rw [hk]
    exact h.derivesShort chain depth (by omega) (by omega)
  have hp : parseTokens ⟨single, depth, chain⟩
      (ts ++ [endToken (Text.byteLength e.print.toList)]) = .ok e := hder.parseTokens_eq rfl
  rw [parse, htok]
  dsimp only
  rw [hp]

/-- a text of a quote and a backslash, a call, and a number that ends with a zero -/
theorem parse_print_entry :
    let e : Expr := .dictionary [(.constant (.text "\"\\"), .call (.member (.var "é") "f")
      [.unary .negate (.constant (.number { negative := false, mantissa := 150, scale := 2 }))])]
    e.Printable ∧ e.print = "new dictionary\x7b\x7b\"\\\"\\\\\",((é).f)(-(1.50))\x7d\x7d" ∧
      parse ⟨false, 21, 21⟩ e.print = .ok e := by
  intro e
  have he : IsIdentifier "é" := ⟨⟨'é', [], by decide, by decide, nofun⟩, by decide⟩
  have hf : IsIdentifier "f" := ⟨⟨'f', [], by decide, by decide, nofun⟩, by decide⟩
  have harg : (Expr.unary .negate
      (.constant (.number { negative := false, mantissa := 150, scale := 2 }))).Printable :=
    .unary (.constant rfl)
  have h : e.Printable := by
    refine .dictionary (List.forall_mem_singleton.2 (.constant trivial))
      (List.forall_mem_singleton.2 (.call (.member (.var he) hf) ?_))
    exact List.forall_mem_singleton.2 harg
  have hp : e.print = "new dictionary\x7b\x7b\"\\\"\\\\\",((é).f)(-(1.50))\x7d\x7d" := by
    decide +kernel
  have hlen : (tokenize false e.print).toOption.map List.length = some 22 := by
    rw [hp]
    decide +kernel
  obtain ⟨ts, hts, hparse⟩ := parse_print false h
  rw [hts] at hlen
  have hlen : (ts ++ [endToken _]).length = 22 := Option.some.inj hlen
  rw [List.length_append, List.length_singleton] at hlen
  exact ⟨h, hp, hparse 21 21 (by omega) (by omega)⟩

end ExprLang
