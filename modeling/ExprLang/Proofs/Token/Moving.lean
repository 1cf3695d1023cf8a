import ExprLang.Proofs.Token.Spacing

/-!
# A text at another offset

* `LexError.moved f e`   the error with the position changed by `f`;
* `Token.moved k t`      the token with its span `k` bytes further, as words of 32 bits.

The text `cs` is cut in the same way at any offset, also if blanks follow: `tokensFrom_moved_ok` and
`tokensFrom_moved_error`.
-/

namespace ExprLang

open Text

def LexError.moved (f : Nat → Nat) (e : LexError) : LexError := ⟨f e.position, e.fault⟩

def Token.moved (k : Nat) (t : Token) : Token :=
  ⟨t.kind, ⟨t.span.start + k.toUInt32, t.span.stop + k.toUInt32⟩⟩

theorem Span.ofOffsets_add (i j k : Nat) : Span.ofOffsets (i + k) (j + k) =
    ⟨(Span.ofOffsets i j).start + k.toUInt32, (Span.ofOffsets i j).stop + k.toUInt32⟩ := by
  simp [Span.ofOffsets, Nat.toUInt32, UInt32.ofNat_add]

theorem Token.moved_ofOffsets (kind : TokenKind) (i j k : Nat) :
    Token.moved k ⟨kind, .ofOffsets i j⟩ = ⟨kind, .ofOffsets (i + k) (j + k)⟩ := by
  rw [Span.ofOffsets_add, Token.moved]

theorem Token.position_moved {k : Nat} {t : Token} (h : t.position + k < 4294967296) :
    (t.moved k).position = t.position + k := by
  rw [Token.position] at h
  simp only [Token.moved, Token.position, UInt32.toNat_add, Nat.toUInt32, UInt32.toNat_ofNat']
  omega

theorem mapError_map {ε ε' α β : Type} (r : Except ε α) (f : ε → ε') (g : α → β) :
    (r.map g).mapError f = (r.mapError f).map g := by
  cases r <;> rfl

section
variable {single : Bool} (o k : Nat) {c : Char} {cs b rest : List Char} {ts : List Token}

theorem Quoted.unescape_moved (cs : List Char) :
    unescape (o + k) cs = (unescape o cs).mapError (LexError.moved (· + k)) := by
  fun_induction unescape o cs with
  | case1 o =>
    rw [unescape]
    rfl
  | case2 o =>
    rw [unescape]
    rfl
  | case3 o c rest d taken he ih =>
    rw [unescape, he, mapError_map, ← ih]
    have ho : o + k + 1 + c.utf8Size + byteLength (rest.take taken) =
        o + 1 + c.utf8Size + byteLength (rest.take taken) + k := by omega
    rw [← ho]
  | case4 o c rest sequence he =>
    rw [unescape, he]
    rfl
  | case5 o c rest h1 h2 ih =>
    rw [unescape.eq_4 _ _ _ h1 h2, mapError_map, ← ih, Nat.add_right_comm]

theorem Quoted.read_moved (cs : List Char) :
    read (o + k) cs = (read o cs).mapError (LexError.moved (· + k)) := by
  rw [read, read]
  cases bodyOf? cs with
  | none => rfl
  | some r =>
    dsimp only
    rw [Nat.add_right_comm, unescape_moved, mapError_map]

theorem number_moved (cs : List Char) :
    number (o + k) cs = (number o cs).mapError (LexError.moved (· + k)) := by
  rw [number, number]
  split
  · cases Decimal.ofDigits? (numberText cs) <;> rfl
  · rfl

theorem lexeme_moved (c : Char) (cs : List Char) :
    lexeme single (o + k) c cs = (lexeme single o c cs).mapError (LexError.moved (· + k)) := by
  rcases startsWord_cases c with rfl | hd | hn | hs
  · rw [lexeme_quote, lexeme_quote, Quoted.read_moved, mapError_map]
  · rw [lexeme_digit single _ _ hd, lexeme_digit single _ _ hd, number_moved, mapError_map]
  · rw [lexeme_name single _ _ hn, lexeme_name single _ _ hn]
    rfl
  · rw [lexeme_symbol single _ _ hs, lexeme_symbol single _ _ hs]
    cases symbol? single (c :: cs) <;> rfl

variable {o}

theorem Scanned.moved (h : Scanned single o cs ts rest) (hb : BlankNext b) :
    Scanned single (o + k) cs (ts.map (Token.moved k)) (rest ++ b) := by
  induction h with
  | nil => exact .nil
  | @blank o c cs ts rest hc _ ih =>
    rw [Nat.add_right_comm] at ih
    exact .blank hc ih
  | @token o c w cs kind ts rest hc hl _ ih =>
    rw [List.map_cons, Token.moved_ofOffsets]
    rw [Nat.add_right_comm] at ih ⊢
    refine .token hc ?_ ih
    rw [← List.append_assoc, ← List.append_assoc]
    rw [← List.append_assoc] at hl
    exact lexeme_append hl hb

theorem scanned_blanks (hb : ∀ c ∈ b, isBlank c = true) : Scanned single o b [] rest := by
  induction b generalizing o with
  | nil => exact .nil
  | cons c b ih =>
    have hb := List.forall_mem_cons.1 hb
    exact .blank hb.1 (ih hb.2)

theorem tokensFrom_moved_ok (h : Scanned single o cs ts []) (hb : ∀ c ∈ b, isBlank c = true) :
    tokensFrom single (o + k) (cs ++ b) =
      .ok (ts.map (Token.moved k) ++ [endToken (o + k + byteLength (cs ++ b))]) := by
  have hs : Scanned single (o + k) cs (ts.map (Token.moved k)) (b ++ []) := by
    rw [List.append_nil]
    exact h.moved k (.of_forall hb)
  have ht := (hs.append (scanned_blanks hb)).ok
  rwa [List.append_nil] at ht

theorem tokensFrom_moved_error {e : LexError} (h : tokensFrom single o cs = .error e)
    (hb : ∀ c ∈ b, isBlank c = true) :
    tokensFrom single (o + k) (cs ++ b) = .error (e.moved (· + k)) := by
  obtain ⟨a, us, c, d, rfl, hs, hc, he⟩ := scanned_of_error h
  have hs := hs.moved k (.of_forall hb)
  rw [List.append_assoc, hs.tokensFrom, List.cons_append, tokensFrom,
    if_neg (by rw [hc]; exact Bool.false_ne_true), lexeme_append_blanks hb, Nat.add_right_comm,
    lexeme_moved, he]
  rfl

end

end ExprLang
