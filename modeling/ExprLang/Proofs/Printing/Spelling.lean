import ExprLang.Proofs.Decimal.Reading
import ExprLang.Proofs.Printing
import ExprLang.Proofs.Token.Scanning

/-!
# Written tokens

* `Closed rest`   a closing bracket, a comma or the end comes next.

Names, keywords and numbers are cut where a text is closed; brackets and literals of texts anywhere;
operators in front of what does not start with `=`.
-/

namespace ExprLang

open Text

def Closed (rest : List Char) : Prop := ∀ c r, rest = c :: r → c ∈ [')', ']', '}', ',']

/-! ## symbols -/

section
variable {single : Bool} {w : List Char} {k : TokenKind}

/-- a symbol that starts with another one goes on with `=` -/
theorem symbols_extend (single : Bool) : ∀ s ∈ symbols single, ∀ t ∈ symbols single,
    t.1 <+: s.1 → s.1 = t.1 ∨ (s.1.drop t.1.length).head? = some '=' := by
  cases single <;> decide

theorem symbol?_append {rest : List Char} (h : (w, k) ∈ symbols single)
    (hr : (∀ s ∈ symbols single, w <+: s.1 → s.1 = w) ∨ rest.head? ≠ some '=') :
    symbol? single (w ++ rest) = some (w, k) := by
  obtain ⟨xs, ys, hs⟩ := List.append_of_mem h
  refine symbol?_eq_some_iff.2 ⟨List.prefix_append .., xs, ys, hs, fun s hm hp => ?_⟩
  have hms : s ∈ symbols single := hs ▸ List.mem_append_left _ hm
  have hasc := symbols_ascending single
  rw [hs] at hasc
  have hns : ¬ s.1 <+: w := (List.pairwise_append.1 hasc).2.2 s hm (w, k) (List.mem_cons_self ..)
  rcases List.prefix_or_prefix_of_prefix hp (List.prefix_append w rest) with hsw | hws
  · exact hns hsw
  · -- the longer symbol goes on with `=`, but the text behind `w` does not
    have hne : s.1 ≠ w := fun he => hns (he ▸ List.prefix_refl _)
    rcases hr with hr | hr
    · exact hne (hr s hms hws)
    · rcases symbols_extend single s hms (w, k) h hws with he | hd
      · exact hne he
      · obtain ⟨d, hd'⟩ := hws
        rw [← hd'] at hp hd
        rw [List.drop_left] at hd
        obtain ⟨r, rfl⟩ := (List.prefix_append_right_inj w).1 hp
        cases d with
        | nil => cases hd
        | cons x d => exact hr hd

theorem spells_symbol {rest : List Char} (h : (w, k) ∈ symbols single)
    (hr : (∀ s ∈ symbols single, w <+: s.1 → s.1 = w) ∨ rest.head? ≠ some '=') :
    Spells single w [k] rest := by
  obtain ⟨c, v, rfl, hc⟩ := symbols_start single h
  exact .token (isBlank_of_symbol single _ h c (List.mem_cons_self ..)) fun o =>
    (lexeme_symbol_eq_ok hc).2 ⟨c :: v, symbol?_append h hr, rfl⟩

end

/-- the symbols that no other symbol starts with, of one character -/
def marks : List (Char × TokenKind) :=
  [('(', .leftParen), (')', .rightParen), ('[', .leftBracket), (']', .rightBracket),
    ('{', .leftBrace), ('}', .rightBrace), ('.', .dot), (',', .comma), (':', .colon),
    ('?', .question)]

variable {single : Bool} {rest : List Char}

theorem Spells.mark {c : Char} {k : TokenKind} {b : List Char} {ls : List TokenKind}
    (h : (c, k) ∈ marks) (hb : Spells single b ls rest) : Spells single (c :: b) (k :: ls) rest := by
  have all : ∀ s ∈ marks, ([s.1], s.2) ∈ symbols single ∧
      ∀ t ∈ symbols single, [s.1] <+: t.1 → t.1 = [s.1] := by
    cases single <;> decide
  have hc : Spells single [c] [k] (b ++ rest) := spells_symbol (all _ h).1 (.inl (all _ h).2)
  exact hc.append hb

/-- the symbol of an operator goes as far as the group behind it -/
theorem spells_operator {w cs : List Char} {k : TokenKind} {ls : List TokenKind}
    (h : (w, k) ∈ symbols single) (hb : Spells single (grouped cs) ls rest) :
    Spells single (w ++ grouped cs) (k :: ls) rest := by
  have hw : Spells single w [k] (grouped cs ++ rest) := by
    refine spells_symbol h (.inr ?_)
    rw [grouped, List.cons_append, List.head?_cons]
    decide
  exact hw.append hb

theorem binaryOp_mem_symbols (op : BinaryOp) :
    (op.symbol.toList, .operator op) ∈ symbols single := by
  cases op <;> cases single <;> decide

theorem unaryOp_mem_symbols (op : UnaryOp) : (op.symbol.toList, op.kind) ∈ symbols single := by
  cases op <;> cases single <;> decide

/-! ## names -/

/-- a name cannot go on -/
def NameEnds (rest : List Char) : Prop := ∀ c r, rest = c :: r → isNameChar c = false

theorem nameEnds_cons {c : Char} {r : List Char} (h : isNameChar c = false) : NameEnds (c :: r) := by
  intro d r' hd
  cases hd
  exact h

theorem closed_cons {c : Char} {r : List Char} (h : c ∈ [')', ']', '}', ',']) : Closed (c :: r) := by
  intro d r' hd
  cases hd
  exact h

theorem Closed.nameEnds (h : Closed rest) : NameEnds rest := by
  intro c r hr
  have all : [')', ']', '}', ','].all (fun d => !isNameChar d) = true := by decide
  have hc := List.all_eq_true.1 all c (h c r hr)
  rwa [Bool.not_eq_true'] at hc

theorem spells_name {name : String} (hn : ∃ c cs, name.toList = c :: cs ∧ isNameStart c = true ∧
      ∀ d ∈ cs, isNameChar d = true) (hr : NameEnds rest) :
    Spells single name.toList [nameToken name] rest := by
  obtain ⟨c, cs, hname, hc, hcs⟩ := hn
  rw [hname]
  refine .token (isNameStart_not_blank hc) fun o => ?_
  have htake : (cs ++ rest).takeWhile isNameChar = cs := by
    rw [List.takeWhile_append_of_pos hcs, takeWhile_stop hr, List.append_nil]
  have hof : String.ofList (c :: cs) = name := by rw [← hname, String.ofList_toList]
  rw [lexeme_name _ _ _ hc, htake, hof]

theorem spells_identifier {name : String} (hn : IsIdentifier name) (hr : NameEnds rest) :
    Spells single name.toList [.identifier name] rest := by
  have h : Spells single name.toList [nameToken name] rest := spells_name hn.1 hr
  have hl : keywords.lookup name = none := by
    rw [List.lookup_eq_none_iff]
    intro p hp
    rw [bne_iff_ne]
    rintro rfl
    exact hn.2 (List.mem_map_of_mem hp)
  rwa [nameToken, hl] at h

theorem spells_keyword {name : String} {k : TokenKind} (h : (name, k) ∈ keywords)
    (hr : NameEnds rest) : Spells single name.toList [k] rest := by
  have all : ∀ p ∈ keywords, nameToken p.1 = p.2 ∧ (p.1.toList.head?.any isNameStart &&
      p.1.toList.tail.all isNameChar) = true := by decide
  obtain ⟨hk, hw⟩ := all _ h
  rw [Bool.and_eq_true, Option.any_eq_true, List.all_eq_true] at hw
  obtain ⟨⟨c, hc, hs⟩, ht⟩ := hw
  obtain ⟨cs, hcs⟩ := List.head?_eq_some_iff.1 hc
  rw [hcs] at ht
  have h : Spells single name.toList [nameToken name] rest := spells_name ⟨c, cs, hcs, hs, ht⟩ hr
  rwa [hk] at h

/-! ## literals -/

theorem numberText_toChars {a : Decimal} (ha : a.negative = false) (hr : Closed rest) :
    numberText (a.toChars ++ rest) = a.toChars := by
  have hdot : ∀ c r, rest = c :: r → c.isDigit = false ∧ c ≠ '.' := by
    intro c r hcr
    have all : [')', ']', '}', ','].all (fun d => !d.isDigit && d != '.') = true := by decide
    have hc := List.all_eq_true.1 all c (hr c r hcr)
    rwa [Bool.and_eq_true, Bool.not_eq_true', bne_iff_ne] at hc
  have hstop : rest.takeWhile Char.isDigit = [] := takeWhile_stop fun c r h => (hdot c r h).1
  rw [a.toChars_eq ha]
  by_cases hs : a.scale = 0
  · rw [if_pos hs, List.append_nil]
    rcases numberText_cases (a.whole ++ rest) with h | ⟨cs, h, -, -⟩
    · rw [h, List.takeWhile_append_of_pos a.isDigit_of_mem_whole, hstop, List.append_nil]
    · -- a point would have to come right behind the digits
      rw [List.dropWhile_append_of_pos a.isDigit_of_mem_whole] at h
      cases rest with
      | nil => cases h
      | cons c r =>
        rw [List.dropWhile_cons, (hdot c r rfl).1, if_neg Bool.false_ne_true] at h
        cases h
        exact absurd rfl (hdot _ _ rfl).2
  · have hp : (a.places ++ rest).takeWhile Char.isDigit = a.places := by
      rw [List.takeWhile_append_of_pos a.isDigit_of_mem_places, hstop, List.append_nil]
    have hne : a.places ≠ [] := by
      rw [Ne, ← List.length_eq_zero_iff, a.length_places]
      exact hs
    have hd := dropWhile_digits_point a.isDigit_of_mem_whole (a.places ++ rest)
    rw [if_neg hs, List.append_assoc, List.cons_append, numberText_point hd (by rwa [hp]), hp,
      takeWhile_digits_point a.isDigit_of_mem_whole]

theorem spells_number {a : Decimal} (ha : a.negative = false) (hr : Closed rest) :
    Spells single a.toChars [.number a] rest := by
  obtain ⟨c, cs, hcs, hc⟩ : ∃ c cs, a.toChars = c :: cs ∧ c.isDigit = true := by
    rw [a.toChars_eq ha]
    cases hw : a.whole with
    | nil => exact absurd hw a.whole_ne_nil
    | cons c cs =>
      exact ⟨c, _, List.cons_append, a.isDigit_of_mem_whole c (hw ▸ List.mem_cons_self ..)⟩
  have hn := numberText_toChars ha hr
  rw [hcs] at hn ⊢
  refine .token (isDigit_not_blank hc) fun o => ?_
  rw [lexeme_digit _ _ _ hc]
  refine map_eq_ok.2 ⟨(a, (c :: cs).length), number_eq_ok.2 ⟨?_, ?_, ?_⟩, rfl⟩
  · rw [← List.cons_append, hn]
  · rw [← List.cons_append, List.drop_left]
    exact takeWhile_stop hr.nameEnds
  · rw [← List.cons_append, hn, ← hcs]
    exact a.ofDigits?_toChars ha

theorem escaped_body (cs : List Char) : Quoted.Body (escaped cs) := by
  induction cs with
  | nil => exact .nil
  | cons c cs ih =>
    rw [escaped]
    split
    · exact .escaped c ih
    · next h =>
      rw [not_or] at h
      exact .plain h.1 h.2 ih

theorem unescape_escaped (o : Nat) (cs : List Char) :
    Quoted.unescape o (escaped cs) = .ok cs := by
  induction cs generalizing o with
  | nil => rw [escaped, Quoted.unescape]
  | cons c cs ih =>
    rw [escaped]
    split
    · next h =>
      have he : Quoted.escape c (escaped cs) = .ok (c, 0) := by
        rcases h with rfl | rfl <;> rfl
      rw [Quoted.unescape, he]
      exact map_eq_ok.2 ⟨cs, ih _, rfl⟩
    · next h =>
      rw [not_or] at h
      rw [Quoted.unescape.eq_4]
      · exact map_eq_ok.2 ⟨cs, ih _, rfl⟩
      · intro hc
        exact absurd hc h.2
      · intro d ds hc
        exact absurd hc h.2

theorem spells_text (s : String) :
    Spells single ('"' :: (escaped s.toList ++ ['"'])) [.string s] rest := by
  refine .token (by decide) fun o => ?_
  rw [lexeme_quote]
  refine map_eq_ok.2 ⟨(s.toList, escaped s.toList), Quoted.read_eq_ok.2 ⟨escaped_body _,
    ⟨rest, by simp⟩, unescape_escaped 0 _⟩, ?_⟩
  dsimp only
  rw [String.ofList_toList, List.length_append, List.length_singleton]

end ExprLang
