import ExprLang.Proofs.Token.Scanning

/-!
# Blanks between tokens

* `BlankNext cs`         a blank comes next, or nothing;
* `words single cs`      the parts of a text that are its tokens, up to an error;
* `Spread ws cs`         the text `cs` is the parts `ws` with blanks around them, and with at least
                         one blank between two parts.

A token is read in the same way if a blank is put behind the text (`lexeme_append`), so it is read in
every spread of its text: `Scanned.spread`.
-/

namespace ExprLang

open Text

def BlankNext (cs : List Char) : Prop := ∀ c r, cs = c :: r → isBlank c = true

theorem BlankNext.cons {c : Char} {cs : List Char} (h : isBlank c = true) : BlankNext (c :: cs) := by
  intro d r hd
  cases hd
  exact h

theorem BlankNext.of_forall {cs : List Char} (h : ∀ c ∈ cs, isBlank c = true) : BlankNext cs := by
  rintro c r rfl
  exact h c (List.mem_cons_self ..)

/-! ## a blank behind a token -/

section
variable {single : Bool} {o o' : Nat} {c : Char} {a b cs : List Char}

/-- a text without blanks goes no further than a blank -/
theorem prefix_append_blank {w : List Char} (hw : ∀ c ∈ w, isBlank c = false) (hb : BlankNext b) :
    w <+: a ++ b ↔ w <+: a := by
  constructor
  · intro h
    rcases List.prefix_or_prefix_of_prefix h (List.prefix_append a b) with h' | ⟨d, rfl⟩
    · exact h'
    · obtain ⟨r, rfl⟩ := (List.prefix_append_right_inj a).1 h
      cases d with
      | nil => exact ⟨[], by simp⟩
      | cons x d =>
        have hx := hw x (List.mem_append_right _ (List.mem_cons_self ..))
        rw [hb x _ rfl] at hx
        cases hx
  · intro h
    exact h.trans (List.prefix_append a b)

theorem symbol?_append_blank (hb : BlankNext b) :
    symbol? single (a ++ b) = symbol? single a := by
  rw [symbol?, symbol?, ← List.head?_filter, ← List.head?_filter]
  refine congrArg List.head? (List.filter_congr fun s hs => ?_)
  rw [Bool.eq_iff_iff, List.isPrefixOf_iff_prefix, List.isPrefixOf_iff_prefix]
  exact prefix_append_blank (isBlank_of_symbol single s hs) hb

theorem takeWhile_append_stop {α : Type} {p : α → Bool} {a b : List α}
    (hb : ∀ x r, b = x :: r → p x = false) : (a ++ b).takeWhile p = a.takeWhile p := by
  induction a with
  | nil => exact takeWhile_stop hb
  | cons x a ih => rw [List.cons_append, List.takeWhile_cons, List.takeWhile_cons, ih]

theorem takeWhile_name_append (hb : BlankNext b) :
    (a ++ b).takeWhile isNameChar = a.takeWhile isNameChar :=
  takeWhile_append_stop fun x r hr => isBlank_not_nameChar (hb x r hr)

theorem Numeral.not_blank {ds : List Char} (h : Numeral ds) : ∀ c ∈ ds, isBlank c = false := by
  cases h with
  | whole hd => exact fun c hc => isDigit_not_blank (hd c hc)
  | places hd _ hp =>
    refine List.forall_mem_append.2 ⟨fun c hc => isDigit_not_blank (hd c hc), ?_⟩
    exact List.forall_mem_cons.2 ⟨by decide, fun c hc => isDigit_not_blank (hp c hc)⟩

theorem number_append_blank (hb : BlankNext b) : number o (a ++ b) = number o a := by
  have hp : numberText (a ++ b) <+: a :=
    (prefix_append_blank (numeral_numberText _).not_blank hb).1 (numberText_initial _)
  have ht := numberText_cut hp.length_le
  rw [number, number, ← ht, List.drop_append_of_le_length (ht ▸ hp.length_le),
    takeWhile_name_append hb]

/-- but for a string literal, a token or its error is the same if a blank is put behind the text -/
theorem lexeme_append_blank (hq : c ≠ '"') (hb : BlankNext b) :
    lexeme single o c (a ++ b) = lexeme single o c a := by
  rcases startsWord_cases c with rfl | hd | hn | hs
  · exact absurd rfl hq
  · rw [lexeme_digit single _ _ hd, lexeme_digit single _ _ hd, ← List.cons_append,
      number_append_blank hb]
  · rw [lexeme_name single _ _ hn, lexeme_name single _ _ hn, takeWhile_name_append hb]
  · rw [lexeme_symbol single _ _ hs, lexeme_symbol single _ _ hs, ← List.cons_append,
      symbol?_append_blank hb]

theorem lexeme_offset {k : TokenKind} {n : Nat} (h : lexeme single o c a = .ok (k, n)) :
    lexeme single o' c a = .ok (k, n) :=
  lexeme_cut (b := []) (by rwa [List.append_nil]) (lexeme_length_le h)

/-- a token is read wherever a blank is put behind the text -/
theorem lexeme_append {k : TokenKind} {n : Nat} (h : lexeme single o c a = .ok (k, n))
    (hb : BlankNext b) : lexeme single o' c (a ++ b) = .ok (k, n) := by
  have ho : lexeme single o' c a = .ok (k, n) := lexeme_offset h
  by_cases hq : c = '"'
  · subst hq
    rw [lexeme_quote] at ho ⊢
    obtain ⟨r, hr, he⟩ := map_eq_ok.1 ho
    obtain ⟨hbody, ⟨rest, rfl⟩, hc⟩ := Quoted.read_eq_ok.1 hr
    exact map_eq_ok.2 ⟨r, Quoted.read_eq_ok.2 ⟨hbody, ⟨rest ++ b, by simp⟩, hc⟩, he⟩
  · rwa [lexeme_append_blank hq hb]

theorem Quoted.bodyOf?_append (hb : '"' ∉ b) :
    bodyOf? (a ++ b) = (bodyOf? a).map fun r => (r.1, r.2 ++ b) := by
  cases ha : bodyOf? a with
  | some r =>
    obtain ⟨body, rest⟩ := r
    obtain ⟨hbody, rfl⟩ := bodyOf?_eq_some_iff.1 ha
    exact bodyOf?_eq_some_iff.2 ⟨hbody, by simp⟩
  | none =>
    refine Option.eq_none_iff_forall_ne_some.2 fun r hr => ?_
    obtain ⟨hbody, heq⟩ := bodyOf?_eq_some_iff.1 hr
    -- the closing quote would stand in `a`, and close the literal there
    rcases List.append_eq_append_iff.1 heq with ⟨d, -, rfl⟩ | ⟨d, rfl, hd⟩
    · exact hb (List.mem_append_right _ (List.mem_cons_self ..))
    · cases d with
      | nil =>
        rw [List.nil_append] at hd
        exact hb (hd ▸ List.mem_cons_self ..)
      | cons x d =>
        obtain ⟨rfl, -⟩ := List.cons.inj hd
        rw [hbody.bodyOf?] at ha
        cases ha

/-- a text that ends in blanks -/
theorem lexeme_append_blanks (hb : ∀ x ∈ b, isBlank x = true) :
    lexeme single o c (a ++ b) = lexeme single o c a := by
  by_cases hq : c = '"'
  · subst hq
    have hquote : '"' ∉ b := fun h => absurd (hb _ h) (by decide)
    rw [lexeme_quote, lexeme_quote, Quoted.read, Quoted.read, Quoted.bodyOf?_append hquote]
    cases Quoted.bodyOf? a <;> rfl
  · exact lexeme_append_blank hq (.of_forall hb)

/-! ## parts of a text -/

def words (single : Bool) : List Char → List (List Char)
  | [] => []
  | c :: cs =>
    if isBlank c then words single cs
    else
      match lexeme single 0 c cs with
      | .error _ => []
      | .ok (_, n) => (c :: cs.take n) :: words single (cs.drop n)
termination_by cs => cs.length
decreasing_by
  · simp only [List.length_cons]; omega
  · simp only [List.length_cons, List.length_drop]; omega

inductive Spread : List (List Char) → List Char → Prop where
  | nil : Spread [] []
  | blank {c ws cs} : isBlank c = true → Spread ws cs → Spread ws (c :: cs)
  | word {w ws cs} : (ws ≠ [] → ∃ c r, cs = c :: r ∧ isBlank c = true) → Spread ws cs →
      Spread (w :: ws) (w ++ cs)

theorem Spread.forall_blank {cs : List Char} (h : Spread [] cs) : ∀ c ∈ cs, isBlank c = true := by
  generalize hw : ([] : List (List Char)) = ws at h
  induction h with
  | nil => exact nofun
  | blank hc _ ih => exact List.forall_mem_cons.2 ⟨hc, ih hw⟩
  | word => cases hw

theorem Spread.blankNext {ws : List (List Char)} {cs : List Char} (h : Spread ws cs)
    (hn : ws ≠ [] → ∃ c r, cs = c :: r ∧ isBlank c = true) : BlankNext cs := by
  cases ws with
  | nil => exact .of_forall h.forall_blank
  | cons w ws =>
    obtain ⟨c, r, rfl, hc⟩ := hn (List.cons_ne_nil _ _)
    exact .cons hc

/-- the text of the first part, what is in front of it and behind it -/
theorem Spread.cons {w : List Char} {ws : List (List Char)} {cs : List Char}
    (h : Spread (w :: ws) cs) : ∃ bs ds, cs = bs ++ (w ++ ds) ∧ (∀ c ∈ bs, isBlank c = true) ∧
      Spread ws ds ∧ BlankNext ds := by
  generalize hw : w :: ws = vs at h
  induction h with
  | nil => cases hw
  | @blank c _ cs hc _ ih =>
    obtain ⟨bs, ds, rfl, hbs, hds, hn⟩ := ih hw
    exact ⟨c :: bs, ds, rfl, List.forall_mem_cons.2 ⟨hc, hbs⟩, hds, hn⟩
  | @word _ _ cs hn hs =>
    cases hw
    exact ⟨[], cs, rfl, nofun, hs, hs.blankNext hn⟩

theorem words_blank (h : isBlank c = true) : words single (c :: cs) = words single cs := by
  rw [words, if_pos h]

theorem words_token {w : List Char} {k : TokenKind} (h : isBlank c = false)
    (hl : lexeme single 0 c (w ++ cs) = .ok (k, w.length)) :
    words single (c :: w ++ cs) = (c :: w) :: words single cs := by
  rw [List.cons_append, words, if_neg (by rw [h]; exact Bool.false_ne_true), hl]
  dsimp only
  rw [List.take_left, List.drop_left]

theorem Spells.blanks {b cs rest : List Char} {ks : List TokenKind}
    (hb : ∀ c ∈ b, isBlank c = true) (h : Spells single cs ks rest) :
    Spells single (b ++ cs) ks rest := by
  induction b with
  | nil => exact h
  | cons c b ih =>
    have hb := List.forall_mem_cons.1 hb
    exact (ih hb.2).blank hb.1

/-- every spread of a text that is cut to its end is cut into tokens of the same kinds -/
theorem Scanned.spread {ts : List Token} (h : Scanned single o cs ts []) {ds : List Char}
    (hd : Spread (words single cs) ds) : Spells single ds (ts.map Token.kind) [] := by
  generalize hr : ([] : List Char) = rest at h
  induction h generalizing ds with
  | nil =>
    subst hr
    rw [words] at hd
    have h : Spells single (ds ++ []) [] [] := .blanks hd.forall_blank .nil
    rwa [List.append_nil] at h
  | blank hc _ ih =>
    rw [words_blank hc] at hd
    exact ih hd hr
  | @token o c w cs k ts rest hc hl _ ih =>
    subst hr
    rw [List.append_nil] at hl
    have hw : lexeme single 0 c w = .ok (k, w.length) := lexeme_cut hl (Nat.le_refl _)
    rw [words_token hc (lexeme_offset hl)] at hd
    obtain ⟨bs, ds, rfl, hbs, hds, hn⟩ := hd.cons
    have hfirst : Spells single (c :: w) [k] (ds ++ []) :=
      .token hc fun _ => lexeme_append hw (by rwa [List.append_nil])
    exact .blanks hbs (hfirst.append (ih hds rfl))

/-- the parts of a text are what the spans of its tokens show, if its offsets fit into them -/
theorem Scanned.slices {s : String} {ts : List Token}
    (h : Scanned single (byteLength a) cs ts []) (hs : s.toList = a ++ cs)
    (hn : byteLength s.toList < 4294967296) :
    ts.map (fun t => (t.span.slice s).toList) = words single cs := by
  generalize hr : ([] : List Char) = rest at h
  generalize ho : byteLength a = o at h
  induction h generalizing a with
  | nil => rw [words]; rfl
  | @blank o c cs ts rest hc _ ih =>
    rw [words_blank hc]
    refine ih (a := a ++ [c]) ?_ hr ?_
    · rw [hs, List.append_assoc]; rfl
    · rw [byteLength_append, ho]; rfl
  | @token o c w cs k ts rest hc hl _ ih =>
    subst hr
    rw [List.append_nil] at hl
    rw [words_token hc (lexeme_offset hl), List.map_cons]
    have hlen := congrArg byteLength hs
    rw [byteLength_append, byteLength_append, ho] at hlen
    have hslice : Text.slice o (o + byteLength (c :: w)) s.toList = some (c :: w) := by
      rw [hs, ← ho, ← List.append_assoc, slice_append]
    rw [Span.slice, Span.ofOffsets_start (by omega), Span.ofOffsets_stop (by omega), hslice,
      Option.getD_some, String.toList_ofList]
    refine congrArg ((c :: w) :: ·) (ih (a := a ++ c :: w) ?_ rfl ?_)
    · rw [hs, List.append_assoc]
    · rw [byteLength_append, ho]

end

end ExprLang
