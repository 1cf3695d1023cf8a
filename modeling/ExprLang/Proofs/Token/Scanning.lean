import ExprLang.Proofs.Token.Lexeme

/-!
# From a text to its tokens

* `Scanned single o cs ts rest`   in front of `rest`, the text `cs` at the byte offset `o` is cut into
                                  the tokens `ts` and blanks;
* `Spells single cs ks rest`      at any offset it is cut into tokens of the kinds `ks`.

The lexer cuts a text until it is used up (`scanned_of_ok`) or until a token has an error
(`scanned_of_error`), and it cuts every text that can be cut (`Scanned.tokensFrom`).  Less behind a
text changes nothing in it: `Scanned.cut`.
-/

namespace ExprLang

open Text

inductive Scanned (single : Bool) : Nat → List Char → List Token → List Char → Prop where
  | nil {o rest} : Scanned single o [] [] rest
  | blank {o c cs ts rest} : isBlank c = true → Scanned single (o + c.utf8Size) cs ts rest →
      Scanned single o (c :: cs) ts rest
  | token {o c w cs k ts rest} : isBlank c = false →
      lexeme single o c (w ++ (cs ++ rest)) = .ok (k, w.length) →
      Scanned single (o + byteLength (c :: w)) cs ts rest →
      Scanned single o (c :: w ++ cs) (⟨k, .ofOffsets o (o + byteLength (c :: w))⟩ :: ts) rest

/-- the end of a text, which the last token of its list marks -/
def endToken (o : Nat) : Token := ⟨.eof, .point o⟩

variable {single : Bool} {o : Nat} {c : Char} {cs rest : List Char} {ts : List Token}

theorem exists_append_of_le {α : Type} {n : Nat} {xs : List α} (h : n ≤ xs.length) :
    ∃ a b, xs = a ++ b ∧ n = a.length :=
  ⟨xs.take n, xs.drop n, (List.take_append_drop n xs).symm, (List.length_take_of_le h).symm⟩

theorem tokensFrom_blank (h : isBlank c = true) :
    tokensFrom single o (c :: cs) = tokensFrom single (o + c.utf8Size) cs := by
  rw [tokensFrom, if_pos h]

theorem tokensFrom_token {w : List Char} {k : TokenKind} (h : isBlank c = false)
    (hl : lexeme single o c (w ++ cs) = .ok (k, w.length)) :
    tokensFrom single o (c :: w ++ cs) =
      (tokensFrom single (o + byteLength (c :: w)) cs).map
        (⟨k, .ofOffsets o (o + byteLength (c :: w))⟩ :: ·) := by
  rw [List.cons_append, tokensFrom, if_neg (by rw [h]; exact Bool.false_ne_true), hl]
  dsimp only
  rw [List.take_left, List.drop_left]

namespace Scanned

theorem tokensFrom (h : Scanned single o cs ts rest) :
    tokensFrom single o (cs ++ rest) =
      (ExprLang.tokensFrom single (o + byteLength cs) rest).map (ts ++ ·) := by
  induction h with
  | @nil o rest =>
    show ExprLang.tokensFrom single o rest = (ExprLang.tokensFrom single o rest).map ([] ++ ·)
    cases ExprLang.tokensFrom single o rest <;> rfl
  | @blank o c cs ts rest hb _ ih =>
    rw [List.cons_append, tokensFrom_blank hb, ih, byteLength_cons, Nat.add_assoc]
  | @token o c w cs k ts rest hb hl _ ih =>
    rw [List.append_assoc, tokensFrom_token hb hl, ih, byteLength_append, ← Nat.add_assoc]
    cases ExprLang.tokensFrom single (o + byteLength (c :: w) + byteLength cs) rest <;> rfl

/-- a text that is cut to its end has these tokens -/
theorem ok (h : Scanned single o cs ts []) :
    ExprLang.tokensFrom single o cs = .ok (ts ++ [endToken (o + byteLength cs)]) := by
  have h := h.tokensFrom
  rw [List.append_nil, ExprLang.tokensFrom] at h
  exact h

theorem cut {b : List Char} (h : Scanned single o cs ts (rest ++ b)) :
    Scanned single o cs ts rest := by
  generalize hr : rest ++ b = r at h
  induction h with
  | nil => exact .nil
  | blank hb _ ih => exact .blank hb (ih hr)
  | @token o c w cs k ts _ hb hl _ ih =>
    subst hr
    have hw : w ++ (cs ++ (rest ++ b)) = w ++ (cs ++ rest) ++ b := by
      rw [List.append_assoc, List.append_assoc]
    rw [hw] at hl
    refine .token hb (lexeme_cut hl ?_) (ih rfl)
    rw [List.length_append]
    exact Nat.le_add_right ..

theorem append {a b : List Char} {us : List Token}
    (ha : Scanned single o a ts (b ++ rest)) (hb : Scanned single (o + byteLength a) b us rest) :
    Scanned single o (a ++ b) (ts ++ us) rest := by
  generalize hr : b ++ rest = r at ha
  induction ha with
  | nil => exact hb
  | blank hc _ ih =>
    rw [byteLength_cons, ← Nat.add_assoc] at hb
    exact .blank hc (ih hb hr)
  | @token o c w cs k ts rest' hc hl _ ih =>
    rw [byteLength_append, ← Nat.add_assoc] at hb
    rw [List.append_assoc]
    refine .token hc ?_ (ih hb hr)
    rw [List.append_assoc, hr]
    exact hl

end Scanned

theorem scanned_of_ok (h : tokensFrom single o cs = .ok ts) :
    ∃ us, ts = us ++ [endToken (o + byteLength cs)] ∧ Scanned single o cs us [] := by
  fun_induction tokensFrom single o cs generalizing ts with
  | case1 o =>
    cases h
    exact ⟨[], rfl, .nil⟩
  | case2 o c cs hb ih =>
    obtain ⟨us, rfl, hs⟩ := ih h
    refine ⟨us, ?_, .blank hb hs⟩
    rw [byteLength_cons, Nat.add_assoc]
  | case3 o c cs hb e he => cases h
  | case4 o c cs hb k n hl =>
    rename_i stop ih
    obtain ⟨ts, ht, rfl⟩ := map_eq_ok.1 h
    obtain ⟨us, rfl, hs⟩ := ih ht
    obtain ⟨w, cs, rfl, rfl⟩ := exists_append_of_le (lexeme_length_le hl)
    have hstop : stop = o + byteLength (c :: w) :=
      congrArg (fun w => o + byteLength (c :: w)) List.take_left
    rw [hstop, List.drop_left] at hs ⊢
    refine ⟨⟨k, .ofOffsets o _⟩ :: us, ?_, .token (by simpa using hb) (by rwa [List.append_nil]) hs⟩
    have hlen : byteLength (c :: (w ++ cs)) = byteLength (c :: w) + byteLength cs :=
      byteLength_append (c :: w) cs
    rw [hlen, Nat.add_assoc]
    rfl

theorem scanned_of_error {e : LexError} (h : tokensFrom single o cs = .error e) :
    ∃ a us c b, cs = a ++ c :: b ∧ Scanned single o a us (c :: b) ∧ isBlank c = false ∧
      lexeme single (o + byteLength a) c b = .error e := by
  fun_induction tokensFrom single o cs with
  | case1 o => cases h
  | case2 o c cs hb ih =>
    obtain ⟨a, us, d, b, rfl, hs, hd, he⟩ := ih h
    refine ⟨c :: a, us, d, b, rfl, .blank hb hs, hd, ?_⟩
    rwa [byteLength_cons, ← Nat.add_assoc]
  | case3 o c cs hb e he =>
    cases h
    exact ⟨[], [], c, cs, rfl, .nil, by simpa using hb, he⟩
  | case4 o c cs hb k n hl =>
    rename_i stop ih
    obtain ⟨a, us, d, b, hd, hs, hb', he⟩ := ih (map_eq_error.1 h)
    obtain ⟨w, cs, rfl, rfl⟩ := exists_append_of_le (lexeme_length_le hl)
    have hstop : stop = o + byteLength (c :: w) :=
      congrArg (fun w => o + byteLength (c :: w)) List.take_left
    rw [hstop] at hs he
    rw [List.drop_left] at hd
    subst hd
    refine ⟨c :: w ++ a, _ :: us, d, b, by rw [List.append_assoc, List.cons_append],
      .token (by simpa using hb) hl hs, hb', ?_⟩
    rwa [byteLength_append, ← Nat.add_assoc]

/-! ## kinds -/

def Spells (single : Bool) (cs : List Char) (ks : List TokenKind) (rest : List Char) : Prop :=
  ∀ o, ∃ ts, Scanned single o cs ts rest ∧ ts.map Token.kind = ks

namespace Spells

variable {single : Bool} {a b cs rest : List Char} {ks ls : List TokenKind}

theorem nil : Spells single [] [] rest := fun _ => ⟨[], .nil, rfl⟩

theorem append (ha : Spells single a ks (b ++ rest)) (hb : Spells single b ls rest) :
    Spells single (a ++ b) (ks ++ ls) rest := by
  intro o
  obtain ⟨ts, hts, rfl⟩ := ha o
  obtain ⟨us, hus, rfl⟩ := hb (o + byteLength a)
  exact ⟨ts ++ us, hts.append hus, List.map_append ..⟩

theorem blank {c : Char} (hc : isBlank c = true) (hb : Spells single b ls rest) :
    Spells single (c :: b) ls rest := by
  intro o
  obtain ⟨us, hus, rfl⟩ := hb (o + c.utf8Size)
  exact ⟨us, .blank hc hus, rfl⟩

theorem token {c : Char} {w : List Char} {k : TokenKind} (hc : isBlank c = false)
    (hl : ∀ o, lexeme single o c (w ++ rest) = .ok (k, w.length)) :
    Spells single (c :: w) [k] rest := by
  intro o
  have h : Scanned single o (c :: w ++ []) _ rest := .token hc (hl o) .nil
  rw [List.append_nil] at h
  exact ⟨_, h, rfl⟩

end Spells

/-! ## the end -/

theorem lexeme_ne_eof {k : TokenKind} {n : Nat} (h : lexeme single o c cs = .ok (k, n)) :
    k ≠ .eof := by
  rcases startsWord_cases c with rfl | hd | hn | hs
  · rw [lexeme_quote] at h
    obtain ⟨r, -, he⟩ := map_eq_ok.1 h
    cases he
    exact nofun
  · rw [lexeme_digit single o cs hd] at h
    obtain ⟨r, -, he⟩ := map_eq_ok.1 h
    cases he
    exact nofun
  · rw [lexeme_name single o cs hn] at h
    cases h
    rw [nameToken]
    cases hl : keywords.lookup _ with
    | none => exact nofun
    | some k =>
      have all : ∀ p ∈ keywords, p.2 ≠ .eof := by decide
      obtain ⟨a, b, hk, -⟩ := List.lookup_eq_some_iff.1 hl
      refine all (String.ofList (c :: cs.takeWhile isNameChar), k) ?_
      rw [hk]
      exact List.mem_append_right _ (List.mem_cons_self ..)
  · obtain ⟨w, hw, -⟩ := (lexeme_symbol_eq_ok hs).1 h
    have all : ∀ s ∈ symbols single, s.2 ≠ .eof := by
      cases single <;> decide
    exact all (w, k) (symbol?_eq_some hw).1

theorem Scanned.ne_eof (h : Scanned single o cs ts rest) : ∀ t ∈ ts, t.kind ≠ .eof := by
  induction h with
  | nil => exact nofun
  | blank _ _ ih => exact ih
  | token _ hl _ ih => exact List.forall_mem_cons.2 ⟨lexeme_ne_eof hl, ih⟩

end ExprLang
