import ExprLang.Proofs.Token.Quoted
import ExprLang.Token.Scan

/-!
# Where a token ends

The first character of a token says what it is: a string, a number, a name, or else one of the
symbols (`lexeme_quote`, `lexeme_digit`, `lexeme_name`, `lexeme_symbol`).

* `startsWord c`   a string, a number or a name may start with the character;
* `Numeral cs`     digits, or digits with a point between them.

For each of the four it is shown that a token that is read lies in the text, that it is read as well
if the text ends anywhere behind it (`lexeme_cut`), and that no longer part of the text is a token on
its own (`lexeme_longest`).
-/

namespace ExprLang

/-! ## runs of characters -/

section
variable {α : Type} {p : α → Bool} {a b : List α}

theorem pos_of_mem_takeWhile : ∀ x ∈ a.takeWhile p, p x = true :=
  List.all_eq_true.1 List.all_takeWhile

theorem takeWhile_append_le (h : ((a ++ b).takeWhile p).length ≤ a.length) :
    a.takeWhile p = (a ++ b).takeWhile p := by
  induction a with
  | nil => exact (List.eq_nil_of_length_eq_zero (Nat.le_zero.1 h)).symm
  | cons x a ih =>
    rw [List.cons_append, List.takeWhile_cons] at h ⊢
    rw [List.takeWhile_cons]
    split
    · next hx =>
      rw [if_pos hx, List.length_cons, List.length_cons] at h
      rw [ih (Nat.le_of_succ_le_succ h)]
    · rfl

theorem takeWhile_stop (hb : ∀ x r, b = x :: r → p x = false) : b.takeWhile p = [] := by
  cases b with
  | nil => rfl
  | cons x r => rw [List.takeWhile_cons, hb x r rfl, if_neg Bool.false_ne_true]

end

/-! ## numbers -/

inductive Numeral : List Char → Prop where
  | whole {ds : List Char} : (∀ d ∈ ds, d.isDigit = true) → Numeral ds
  | places {ds ps : List Char} : (∀ d ∈ ds, d.isDigit = true) → ps ≠ [] →
      (∀ d ∈ ps, d.isDigit = true) → Numeral (ds ++ '.' :: ps)

theorem numberText_point {cs rest : List Char} (h : cs.dropWhile Char.isDigit = '.' :: rest)
    (hp : rest.takeWhile Char.isDigit ≠ []) :
    numberText cs = cs.takeWhile Char.isDigit ++ '.' :: rest.takeWhile Char.isDigit := by
  have he : (rest.takeWhile Char.isDigit).isEmpty = false := by simpa using hp
  rw [numberText]
  simp only [h, he, Bool.false_eq_true, if_false]

theorem numberText_cases (cs : List Char) : numberText cs = cs.takeWhile Char.isDigit ∨
    ∃ rest, cs.dropWhile Char.isDigit = '.' :: rest ∧ rest.takeWhile Char.isDigit ≠ [] ∧
      numberText cs = cs.takeWhile Char.isDigit ++ '.' :: rest.takeWhile Char.isDigit := by
  by_cases h : ∃ rest, cs.dropWhile Char.isDigit = '.' :: rest ∧
      rest.takeWhile Char.isDigit ≠ []
  · obtain ⟨rest, hr, hp⟩ := h
    exact .inr ⟨rest, hr, hp, numberText_point hr hp⟩
  · refine .inl ?_
    rw [numberText]
    split
    · next rest hr =>
      have hp : rest.takeWhile Char.isDigit = [] := Classical.not_not.1 fun hp => h ⟨rest, hr, hp⟩
      rw [hp]
      rfl
    · rfl

theorem numeral_numberText (cs : List Char) : Numeral (numberText cs) := by
  rcases numberText_cases cs with h | ⟨rest, -, hp, h⟩
  · rw [h]
    exact .whole pos_of_mem_takeWhile
  · rw [h]
    exact .places pos_of_mem_takeWhile hp pos_of_mem_takeWhile

theorem numberText_initial (cs : List Char) : numberText cs <+: cs := by
  rcases numberText_cases cs with h | ⟨rest, hr, -, h⟩
  · rw [h]
    exact List.takeWhile_prefix _
  · have hcs := List.takeWhile_append_dropWhile (p := Char.isDigit) (l := cs)
    rw [hr] at hcs
    rw [h]
    conv => rhs; rw [← hcs]
    exact (List.prefix_append_right_inj _).2 (List.cons_prefix_cons.2
      ⟨rfl, List.takeWhile_prefix _⟩)

/-- a number is read at least as far as it is one -/
theorem Numeral.prefix_numberText {cs : List Char} (h : Numeral cs) (rest : List Char) :
    cs <+: numberText (cs ++ rest) := by
  cases h with
  | whole hd =>
    have hw : (cs ++ rest).takeWhile Char.isDigit = cs ++ rest.takeWhile Char.isDigit :=
      List.takeWhile_append_of_pos hd
    rcases numberText_cases (cs ++ rest) with h | ⟨_, -, -, h⟩
    · rw [h, hw]
      exact List.prefix_append ..
    · rw [h, hw, List.append_assoc]
      exact List.prefix_append ..
  | @places ds ps hd hne hp =>
    have hr := Text.dropWhile_digits_point hd (ps ++ rest)
    have hps : (ps ++ rest).takeWhile Char.isDigit = ps ++ rest.takeWhile Char.isDigit :=
      List.takeWhile_append_of_pos hp
    rw [List.append_assoc, List.cons_append, numberText_point hr (by simp [hps, hne]),
      Text.takeWhile_digits_point hd, hps]
    exact (List.prefix_append_right_inj _).2 (List.cons_prefix_cons.2
      ⟨rfl, List.prefix_append ..⟩)

theorem numberText_cut {a b : List Char} (h : (numberText (a ++ b)).length ≤ a.length) :
    numberText a = numberText (a ++ b) := by
  have hab := numberText_initial (a ++ b)
  have ha : numberText (a ++ b) <+: a :=
    List.prefix_of_prefix_length_le hab (List.prefix_append a b) h
  -- what was read is a numeral, so reading `a` gives at least that, and the other way round
  have h1 : numberText (a ++ b) <+: numberText a := by
    obtain ⟨d, hd⟩ := ha
    have h1 := (numeral_numberText (a ++ b)).prefix_numberText d
    rwa [hd] at h1
  have h2 : numberText a <+: numberText (a ++ b) := by
    obtain ⟨d, hd⟩ := numberText_initial a
    have h2 := (numeral_numberText a).prefix_numberText (d ++ b)
    rwa [← List.append_assoc, hd] at h2
  exact h2.eq_of_length (Nat.le_antisymm h2.length_le h1.length_le)

/-! ## symbols -/

def startsWord (c : Char) : Bool := c == '"' || c.isDigit || isNameStart c

theorem symbols_start (single : Bool) {s : List Char × TokenKind} (h : s ∈ symbols single) :
    ∃ c cs, s.1 = c :: cs ∧ startsWord c = false := by
  have all : (symbols single).all (fun s => match s.1 with
      | c :: _ => !startsWord c
      | [] => false) = true := by
    cases single <;> decide
  have hs := List.all_eq_true.1 all s h
  split at hs
  · next c cs he => exact ⟨c, cs, he, by simpa using hs⟩
  · cases hs

/-- no symbol starts with one that stands before it -/
theorem symbols_ascending (single : Bool) :
    (symbols single).Pairwise fun s t => ¬ s.1 <+: t.1 := by
  cases single <;> decide

theorem symbol?_of_startsWord {single : Bool} {c : Char} (h : startsWord c = true)
    (rest : List Char) : symbol? single (c :: rest) = none := by
  rw [symbol?, List.find?_eq_none]
  intro s hs hp
  obtain ⟨d, ds, he, hd⟩ := symbols_start single hs
  rw [he, List.isPrefixOf_cons_cons, Bool.and_eq_true, beq_iff_eq] at hp
  rw [hp.1, h] at hd
  cases hd

/-- a symbol is read if it is the first one in the list that the text starts with -/
theorem symbol?_eq_some_iff {single : Bool} {cs : List Char} {s : List Char × TokenKind} :
    symbol? single cs = some s ↔ s.1 <+: cs ∧ ∃ xs ys, symbols single = xs ++ s :: ys ∧
      ∀ t ∈ xs, ¬ t.1 <+: cs := by
  rw [symbol?, List.find?_eq_some_iff_append]
  simp only [List.isPrefixOf_iff_prefix, Bool.not_eq_true', Bool.eq_false_iff, ne_eq]

theorem symbol?_eq_some {single : Bool} {cs w : List Char} {k : TokenKind}
    (h : symbol? single cs = some (w, k)) : (w, k) ∈ symbols single ∧ w <+: cs :=
  ⟨List.mem_of_find?_eq_some h, (symbol?_eq_some_iff.1 h).1⟩

theorem symbol?_cut {single : Bool} {a b w : List Char} {k : TokenKind}
    (h : symbol? single (a ++ b) = some (w, k)) (hw : w.length ≤ a.length) :
    symbol? single a = some (w, k) := by
  obtain ⟨hp, xs, ys, hs, hx⟩ := symbol?_eq_some_iff.1 h
  -- a symbol in front of it would be one of the longer text as well
  exact symbol?_eq_some_iff.2
    ⟨List.prefix_of_prefix_length_le hp (List.prefix_append a b) hw, xs, ys, hs,
      fun t ht hta => hx t ht (hta.trans (List.prefix_append a b))⟩

theorem symbol?_longest {single : Bool} {a b w : List Char} {k k' : TokenKind}
    (h : symbol? single (a ++ b) = some (w, k)) (h' : (a, k') ∈ symbols single) :
    a.length ≤ w.length := by
  refine Nat.le_of_not_lt fun hlt => ?_
  obtain ⟨hp, xs, ys, hs, hx⟩ := symbol?_eq_some_iff.1 h
  have hwa : w <+: a :=
    List.prefix_of_prefix_length_le hp (List.prefix_append a b) (Nat.le_of_lt hlt)
  have hasc := symbols_ascending single
  rw [hs] at h' hasc
  rcases List.mem_append.1 h' with hm | hm
  · exact hx _ hm (List.prefix_append a b)
  · rcases List.mem_cons.1 hm with he | hm
    · cases he
      exact Nat.lt_irrefl _ hlt
    · have hpair := (List.pairwise_append.1 hasc).2.1
      exact (List.pairwise_cons.1 hpair).1 _ hm hwa

/-! ## tokens by their first character -/

/-- what holds of the ten digits -/
theorem forall_digit {p : Char → Bool} (all : ∀ n < 58, 48 ≤ n → p (Char.ofNat n) = false)
    {c : Char} (h : c.isDigit = true) : p c = false := by
  rw [Char.isDigit, Bool.and_eq_true, decide_eq_true_eq, decide_eq_true_eq] at h
  have h1 : 48 ≤ c.toNat := h.1
  have h2 : c.toNat ≤ 57 := h.2
  have hc := all c.toNat (Nat.lt_succ_of_le h2) h1
  rwa [Char.ofNat_toNat] at hc

theorem isDigit_not_nameStart {c : Char} : c.isDigit = true → isNameStart c = false :=
  forall_digit (by decide)

theorem isDigit_not_blank {c : Char} : c.isDigit = true → Text.isBlank c = false :=
  forall_digit (by decide)

/-- what holds of the blanks -/
theorem forall_blank {p : Char → Bool}
    (all : ∀ r ∈ Text.blankRanges, ∀ i ≤ r.2 - r.1, p (Char.ofNat (r.1 + i)) = false)
    {c : Char} (h : Text.isBlank c = true) : p c = false := by
  obtain ⟨r, hr, h1, h2⟩ := Text.inRanges_sound h
  have hc := all r hr (c.toNat - r.1) (Nat.sub_le_sub_right h2 _)
  rwa [Nat.add_sub_cancel' h1, Char.ofNat_toNat] at hc

theorem isBlank_not_nameChar {c : Char} : Text.isBlank c = true → isNameChar c = false :=
  forall_blank (by decide +kernel)

theorem isNameStart_not_blank {c : Char} (h : isNameStart c = true) : Text.isBlank c = false := by
  cases hb : Text.isBlank c with
  | false => rfl
  | true =>
    have hc := isBlank_not_nameChar hb
    simp_all [isNameStart, isNameChar]

theorem isBlank_of_symbol (single : Bool) : ∀ s ∈ symbols single, ∀ c ∈ s.1,
    Text.isBlank c = false := by
  have all : (symbols single).all (fun s => s.1.all fun c => !Text.isBlank c) = true := by
    cases single <;> decide
  intro s hs c hc
  have h := List.all_eq_true.1 (List.all_eq_true.1 all s hs) c hc
  rwa [Bool.not_eq_true'] at h

variable (single : Bool) (o : Nat) {c : Char} (rest : List Char)

theorem lexeme_quote : lexeme single o '"' rest =
    (Quoted.read o rest).map fun (content, body) =>
      (.string (String.ofList content), body.length + 1) := by
  rw [lexeme, symbol?_of_startsWord rfl]
  rfl

theorem lexeme_digit (h : c.isDigit = true) : lexeme single o c rest =
    (number o (c :: rest)).map fun (a, length) => (.number a, length - 1) := by
  have hs : startsWord c = true := by simp [startsWord, h]
  have he : c ≠ '=' := by
    rintro rfl
    cases h
  have hq : c ≠ '"' := by
    rintro rfl
    cases h
  rw [lexeme, symbol?_of_startsWord hs]
  simp only [he, hq, h, if_false, if_true]

theorem lexeme_name (h : isNameStart c = true) : lexeme single o c rest =
    .ok (nameToken (String.ofList (c :: rest.takeWhile isNameChar)),
      (rest.takeWhile isNameChar).length) := by
  have hs : startsWord c = true := by simp [startsWord, h]
  have hd : c.isDigit = false := by
    cases hd : c.isDigit with
    | false => rfl
    | true => exact absurd ((isDigit_not_nameStart hd).symm.trans h) Bool.false_ne_true
  have he : c ≠ '=' := by
    rintro rfl
    revert h
    decide
  have hq : c ≠ '"' := by
    rintro rfl
    revert h
    decide
  rw [lexeme, symbol?_of_startsWord hs]
  simp only [he, hq, hd, h, if_false, if_true, Bool.false_eq_true]

theorem lexeme_symbol (h : startsWord c = false) : lexeme single o c rest =
    match symbol? single (c :: rest) with
    | some (w, k) => .ok (k, w.length - 1)
    | none => .error ⟨o, if c = '=' then .singleEqualSign else .unexpectedCharacter c⟩ := by
  simp only [startsWord, Bool.or_eq_false_iff, beq_eq_false_iff_ne] at h
  obtain ⟨⟨hq, hd⟩, hn⟩ := h
  rw [lexeme]
  cases symbol? single (c :: rest) with
  | some s => rfl
  | none =>
    simp only [hq, hd, hn, if_false, Bool.false_eq_true]
    split <;> rfl

theorem startsWord_cases (c : Char) :
    c = '"' ∨ c.isDigit = true ∨ isNameStart c = true ∨ startsWord c = false := by
  by_cases hq : c = '"'
  · exact .inl hq
  · cases hd : c.isDigit with
    | true => exact .inr (.inl rfl)
    | false =>
      cases hn : isNameStart c with
      | true => exact .inr (.inr (.inl rfl))
      | false => exact .inr (.inr (.inr (by simp [startsWord, hq, hd, hn])))

/-! ## what is read of a text -/

section
variable {single : Bool} {o o' : Nat} {c : Char} {a b rest : List Char} {k k' : TokenKind} {n : Nat}

theorem number_eq_ok {cs : List Char} {x : Decimal} : number o cs = .ok (x, n) ↔
    n = (numberText cs).length ∧ (cs.drop n).takeWhile isNameChar = [] ∧
      Decimal.ofDigits? (numberText cs) = some x := by
  rw [number]
  cases ht : (cs.drop (numberText cs).length).takeWhile isNameChar with
  | nil =>
    cases hd : Decimal.ofDigits? (numberText cs) with
    | none => simp
    | some y =>
      constructor
      · intro h
        cases h
        exact ⟨rfl, ht, rfl⟩
      · intro h
        obtain ⟨rfl, -, h⟩ := h
        cases h
        rfl
  | cons d ds =>
    refine ⟨nofun, ?_⟩
    intro h
    obtain ⟨rfl, h, -⟩ := h
    rw [ht] at h
    cases h

theorem number_error {cs : List Char} {e : LexError} (h : number o cs = .error e) :
    ∃ text, e = ⟨o, .invalidNumber text⟩ := by
  rw [number] at h
  split at h
  · split at h
    · cases h
    · cases h
      exact ⟨_, rfl⟩
  · cases h
    exact ⟨_, rfl⟩

theorem lexeme_symbol_eq_ok (hc : startsWord c = false) :
    lexeme single o c rest = .ok (k, n) ↔
      ∃ w, symbol? single (c :: rest) = some (w, k) ∧ w.length = n + 1 := by
  rw [lexeme_symbol single o rest hc]
  cases hs : symbol? single (c :: rest) with
  | none => simp
  | some s =>
    obtain ⟨w, k⟩ := s
    obtain ⟨d, ds, rfl, -⟩ := symbols_start single (symbol?_eq_some hs).1
    constructor
    · intro h
      cases h
      exact ⟨d :: ds, rfl, rfl⟩
    · intro h
      obtain ⟨w, hw, hl⟩ := h
      cases hw
      rw [List.length_cons] at hl
      cases hl
      rfl

theorem lexeme_length_le (h : lexeme single o c rest = .ok (k, n)) : n ≤ rest.length := by
  rcases startsWord_cases c with rfl | hd | hn | hs
  · rw [lexeme_quote] at h
    obtain ⟨⟨content, body⟩, hr, he⟩ := map_eq_ok.1 h
    cases he
    obtain ⟨-, ⟨r, rfl⟩, -⟩ := Quoted.read_eq_ok.1 hr
    simp
  · rw [lexeme_digit single o rest hd] at h
    obtain ⟨⟨x, m⟩, hr, he⟩ := map_eq_ok.1 h
    cases he
    obtain ⟨rfl, -, -⟩ := number_eq_ok.1 hr
    have := (numberText_initial (c :: rest)).length_le
    rw [List.length_cons] at this
    exact Nat.sub_le_of_le_add this
  · rw [lexeme_name single o rest hn] at h
    cases h
    exact (List.takeWhile_prefix _).length_le
  · obtain ⟨w, hw, hl⟩ := (lexeme_symbol_eq_ok hs).1 h
    have := (symbol?_eq_some hw).2.length_le
    rw [hl, List.length_cons] at this
    exact Nat.le_of_succ_le_succ this

/-- a token is read in the same way if the text ends anywhere behind it -/
theorem lexeme_cut (h : lexeme single o c (a ++ b) = .ok (k, n)) (hn : n ≤ a.length) :
    lexeme single o' c a = .ok (k, n) := by
  rcases startsWord_cases c with rfl | hd | hname | hs
  · rw [lexeme_quote] at h ⊢
    obtain ⟨⟨content, body⟩, hr, he⟩ := map_eq_ok.1 h
    cases he
    exact map_eq_ok.2 ⟨_, Quoted.read_prefix hr hn, rfl⟩
  · rw [lexeme_digit single _ _ hd] at h ⊢
    obtain ⟨⟨x, m⟩, hr, he⟩ := map_eq_ok.1 h
    cases he
    obtain ⟨rfl, ht, hx⟩ := number_eq_ok.1 hr
    rw [← List.cons_append] at ht hx hn ⊢
    have hl : (numberText (c :: a ++ b)).length ≤ (c :: a).length := by
      rw [List.length_cons]
      exact Nat.le_add_of_sub_le hn
    have hw := numberText_cut hl
    rw [List.drop_append_of_le_length hl] at ht
    refine map_eq_ok.2 ⟨(x, _), number_eq_ok.2 ⟨by rw [hw], ?_, by rwa [hw]⟩, rfl⟩
    rw [takeWhile_append_le (by rw [ht]; exact Nat.zero_le _), ht]
  · rw [lexeme_name single _ _ hname] at h ⊢
    cases h
    rw [takeWhile_append_le hn]
  · obtain ⟨w, hw, hl⟩ := (lexeme_symbol_eq_ok hs).1 h
    refine (lexeme_symbol_eq_ok hs).2 ⟨w, ?_, hl⟩
    rw [← List.cons_append] at hw
    refine symbol?_cut hw ?_
    rw [hl, List.length_cons]
    exact Nat.succ_le_succ hn

/-- no longer text is a token on its own -/
theorem lexeme_longest (h : lexeme single o c (a ++ b) = .ok (k, n))
    (h' : lexeme single o' c a = .ok (k', a.length)) : a.length ≤ n := by
  rcases startsWord_cases c with rfl | hd | hname | hs
  · rw [lexeme_quote] at h h'
    obtain ⟨⟨content, body⟩, hr, he⟩ := map_eq_ok.1 h
    obtain ⟨⟨content', body'⟩, hr', he'⟩ := map_eq_ok.1 h'
    obtain ⟨-, rfl⟩ := Prod.mk.inj he
    obtain ⟨-, hl⟩ := Prod.mk.inj he'
    have hb : body' = body := Quoted.read_unique hr hr'
    rw [hb] at hl
    exact Nat.le_of_eq hl.symm
  · rw [lexeme_digit single _ _ hd] at h h'
    obtain ⟨⟨x, m⟩, hr, he⟩ := map_eq_ok.1 h
    obtain ⟨⟨x', m'⟩, hr', he'⟩ := map_eq_ok.1 h'
    obtain ⟨-, rfl⟩ := Prod.mk.inj he
    obtain ⟨-, hl⟩ := Prod.mk.inj he'
    obtain ⟨rfl, -, -⟩ := number_eq_ok.1 hr
    obtain ⟨rfl, -, -⟩ := number_eq_ok.1 hr'
    -- what is read of `c :: a` is a numeral, and is read of the longer text as well
    obtain ⟨d, hd⟩ := numberText_initial (c :: a)
    have hp := ((numeral_numberText (c :: a)).prefix_numberText (d ++ b)).length_le
    rw [← List.append_assoc, hd, List.cons_append] at hp
    rw [← hl]
    exact Nat.sub_le_sub_right hp 1
  · rw [lexeme_name single _ _ hname] at h h'
    obtain ⟨-, hl⟩ := Prod.mk.inj (Except.ok.inj h)
    obtain ⟨-, hl'⟩ := Prod.mk.inj (Except.ok.inj h')
    have ha : a.takeWhile isNameChar = a := (List.takeWhile_prefix _).eq_of_length hl'
    have hp : ∀ x ∈ a, isNameChar x = true := by
      rw [← ha]
      exact pos_of_mem_takeWhile
    rw [← hl, List.takeWhile_append_of_pos hp, List.length_append]
    exact Nat.le_add_right ..
  · obtain ⟨w, hw, hl⟩ := (lexeme_symbol_eq_ok hs).1 h
    obtain ⟨w', hw', hl'⟩ := (lexeme_symbol_eq_ok hs).1 h'
    obtain ⟨hm, hp⟩ := symbol?_eq_some hw'
    obtain rfl := hp.eq_of_length (by rw [hl', List.length_cons])
    have := symbol?_longest hw hm
    rw [hl, List.length_cons] at this
    exact Nat.le_of_succ_le_succ this

/-- an error is reported between two characters of the token or behind it -/
theorem lexeme_error {e : LexError} (h : lexeme single o c rest = .error e) :
    ∃ a b, c :: rest = a ++ b ∧ e.position = o + Text.byteLength a := by
  rcases startsWord_cases c with rfl | hd | hname | hs
  · rw [lexeme_quote] at h
    exact Quoted.read_error (map_eq_error.1 h)
  · rw [lexeme_digit single _ _ hd] at h
    obtain ⟨text, rfl⟩ := number_error (map_eq_error.1 h)
    exact ⟨[], _, rfl, rfl⟩
  · rw [lexeme_name single _ _ hname] at h
    cases h
  · rw [lexeme_symbol single _ _ hs] at h
    split at h
    · cases h
    · cases h
      exact ⟨[], _, rfl, rfl⟩

end

end ExprLang
