import ExprLang.Proofs.Token.Escape
import ExprLang.Proofs.Token.Scanning

/-!
# String literals

A literal that is closed is a token or has the error of its first bad escape; one that is not closed
has no other error (`closed_cases`, `lexeme_closed_cases`).  `lexeme_literal` says when a literal is
read, and which error it has otherwise.
-/

namespace ExprLang

open Text

/-! ## tokens -/

open Quoted

variable {single : Bool} {o : Nat} {rest : List Char}

theorem lexeme_closed {body : List Char} (hb : Body body) (after : List Char) :
    lexeme single o '"' (body ++ '"' :: after) = (unescape (o + 1) body).map fun content =>
      (.string (String.ofList content), body.length + 1) := by
  rw [lexeme_quote, Quoted.read, hb.bodyOf?]
  dsimp only
  cases unescape (o + 1) body <;> rfl

theorem lexeme_unclosed (h : ∀ body after, Body body → rest ≠ body ++ '"' :: after) :
    lexeme single o '"' rest = .error ⟨o, .unterminatedString⟩ := by
  have hn : bodyOf? rest = none := by
    rw [Option.eq_none_iff_forall_not_mem]
    intro p hp
    obtain ⟨hb, hr⟩ := bodyOf?_eq_some_iff.1 (Option.mem_def.1 hp)
    exact h p.1 p.2 hb hr
  rw [lexeme_quote, Quoted.read, hn]
  rfl

theorem closed_cases (rest : List Char) :
    (∃ body after, Body body ∧ rest = body ++ '"' :: after) ∨
      ∀ body after, Body body → rest ≠ body ++ '"' :: after := by
  rcases Classical.em (∃ body after, Body body ∧ rest = body ++ '"' :: after) with h | h
  · exact .inl h
  · exact .inr fun body after hb hr => h ⟨body, after, hb, hr⟩

/-- a literal that is closed has a content, or an error at the first backslash that starts no
escape -/
theorem lexeme_closed_cases {body : List Char} (hb : Body body) (after : List Char) :
    (∃ content, Pieces body content ∧ lexeme single o '"' (body ++ '"' :: after) =
        .ok (.string (String.ofList content), body.length + 1)) ∨
      ∃ good sequence, BadEscape body good ∧ sequence ≠ "" ∧
        lexeme single o '"' (body ++ '"' :: after) =
          .error ⟨o + 1 + byteLength good, .invalidEscape sequence⟩ := by
  rw [lexeme_closed hb]
  rcases unescape_cases (o := o + 1) hb with ⟨content, hu, hp⟩ | ⟨good, sequence, hu, hbad, hs⟩
  · exact .inl ⟨content, hp, by rw [hu]; rfl⟩
  · exact .inr ⟨good, sequence, hbad, hs, by rw [hu]; rfl⟩

theorem lexeme_eq_string {k : TokenKind} {n : Nat} : lexeme single o '"' rest = .ok (k, n) ↔
    ∃ body content after, rest = body ++ '"' :: after ∧ Pieces body content ∧
      k = .string (String.ofList content) ∧ n = body.length + 1 := by
  constructor
  · intro h
    rcases closed_cases rest with ⟨body, after, hb, rfl⟩ | hno
    · rcases lexeme_closed_cases hb after with ⟨content, hp, hl⟩ | ⟨good, sequence, -, -, hl⟩
      · rw [hl] at h
        cases h
        exact ⟨body, content, after, rfl, hp, rfl, rfl⟩
      · rw [hl] at h
        cases h
    · rw [lexeme_unclosed hno] at h
      cases h
  · intro h0
    obtain ⟨body, content, after, rfl, hp, rfl, rfl⟩ := h0
    rw [lexeme_closed hp.body, hp.unescape]
    rfl

theorem lexeme_unterminated {p : Nat} :
    lexeme single o '"' rest = .error ⟨p, .unterminatedString⟩ ↔
      p = o ∧ ∀ body after, Body body → rest ≠ body ++ '"' :: after := by
  constructor
  · intro h
    rcases closed_cases rest with ⟨body, after, hb, rfl⟩ | hno
    · rcases lexeme_closed_cases hb after with ⟨content, -, hl⟩ | ⟨good, sequence, -, -, hl⟩
      · rw [hl] at h
        cases h
      · rw [hl] at h
        cases h
    · rw [lexeme_unclosed hno] at h
      cases h
      exact ⟨rfl, hno⟩
  · intro h0
    obtain ⟨rfl, hno⟩ := h0
    exact lexeme_unclosed hno

theorem lexeme_badEscape {p : Nat} :
    (∃ sequence, lexeme single o '"' rest = .error ⟨p, .invalidEscape sequence⟩) ↔
      ∃ body good after, rest = body ++ '"' :: after ∧ Body body ∧ BadEscape body good ∧
        p = o + 1 + byteLength good := by
  constructor
  · intro h0
    obtain ⟨sequence, h⟩ := h0
    rcases closed_cases rest with ⟨body, after, hb, rfl⟩ | hno
    · rcases lexeme_closed_cases hb after with ⟨content, -, hl⟩ | ⟨good, sequence, hbad, -, hl⟩
      · rw [hl] at h
        cases h
      · rw [hl] at h
        cases h
        exact ⟨body, good, after, rfl, hb, hbad, rfl⟩
    · rw [lexeme_unclosed hno] at h
      cases h
  · intro h0
    obtain ⟨body, good, after, rfl, hb, hbad, rfl⟩ := h0
    obtain ⟨sequence, hu⟩ := hbad.unescape (o + 1)
    exact ⟨sequence, by rw [lexeme_closed hb, hu]; rfl⟩

theorem lexeme_quote_fault {e : LexError} (h : lexeme single o '"' rest = .error e) :
    e.fault = .unterminatedString ∨ ∃ sequence, sequence ≠ "" ∧ e.fault = .invalidEscape sequence := by
  rcases closed_cases rest with ⟨body, after, hb, rfl⟩ | hno
  · rcases lexeme_closed_cases hb after with ⟨content, -, hl⟩ | ⟨good, sequence, -, hs, hl⟩
    · rw [hl] at h
      cases h
    · rw [hl] at h
      cases h
      exact .inr ⟨sequence, hs, rfl⟩
  · rw [lexeme_unclosed hno] at h
    cases h
    exact .inl rfl

/-- only in a literal does an error name an escape -/
theorem lexeme_other_fault {c : Char} {e : LexError} (hc : c ≠ '"')
    (h : lexeme single o c rest = .error e) (sequence : String) : e.fault ≠ .invalidEscape sequence := by
  intro he
  rcases startsWord_cases c with hq | hd | hn | hs
  · exact hc hq
  · rw [lexeme_digit single o rest hd] at h
    obtain ⟨text, rfl⟩ := number_error (map_eq_error.1 h)
    cases he
  · rw [lexeme_name single o rest hn] at h
    cases h
  · rw [lexeme_symbol single o rest hs] at h
    split at h
    · cases h
    · cases h
      dsimp only at he
      split at he <;> cases he

/-- an escape that an error names is not empty -/
theorem lexeme_fault {c : Char} {e : LexError} (h : lexeme single o c rest = .error e) :
    e.fault ≠ .invalidEscape "" := by
  by_cases hc : c = '"'
  · subst hc
    rcases lexeme_quote_fault h with hf | ⟨sequence, hs, hf⟩
    · rw [hf]
      intro he
      cases he
    · rw [hf]
      intro he
      cases he
      exact hs rfl
  · exact lexeme_other_fault hc h ""

/-- a literal on its own is one token -/
theorem tokenize_pieces {body content : List Char} (h : Pieces body content) :
    let n := byteLength ('"' :: (body ++ ['"']))
    tokenize single (String.ofList ('"' :: (body ++ ['"']))) =
      .ok [⟨.string (String.ofList content), .ofOffsets 0 n⟩, endToken n] := by
  have hl : lexeme single 0 '"' ((body ++ ['"']) ++ ([] ++ [])) =
      .ok (.string (String.ofList content), (body ++ ['"']).length) :=
    lexeme_eq_string.2 ⟨body, content, [], by simp, h, rfl, by simp⟩
  have hs := (Scanned.token (by decide) hl .nil).ok
  rw [List.append_nil, Nat.zero_add] at hs
  rw [tokenize, String.toList_ofList]
  exact hs

theorem lexeme_literal (single : Bool) (o : Nat) (rest : List Char) :
    (∀ k n, lexeme single o '"' rest = .ok (k, n) ↔ ∃ body content after,
      rest = body ++ '"' :: after ∧ Pieces body content ∧ k = .string (String.ofList content) ∧
        n = body.length + 1) ∧
    (∀ content, (∃ body, Pieces body content) ∧ ∀ body, Pieces body content →
      ∃ n, tokenize single (String.ofList ('"' :: (body ++ ['"']))) =
        .ok [⟨.string (String.ofList content), .ofOffsets 0 n⟩, endToken n]) ∧
    (∀ p, lexeme single o '"' rest = .error ⟨p, .unterminatedString⟩ ↔
      p = o ∧ ∀ body after, Body body → rest ≠ body ++ '"' :: after) ∧
    (∀ p, (∃ sequence, lexeme single o '"' rest = .error ⟨p, .invalidEscape sequence⟩) ↔
      ∃ body good after, rest = body ++ '"' :: after ∧ Body body ∧ BadEscape body good ∧
        p = o + 1 + byteLength good) ∧
    (∀ e, lexeme single o '"' rest = .error e →
      e.fault = .unterminatedString ∨ ∃ sequence, e.fault = .invalidEscape sequence) ∧
    ∀ s e, tokenize single s = .error e → e.fault ≠ .invalidEscape "" := by
  refine ⟨fun _ _ => lexeme_eq_string, fun content => ⟨exists_pieces content, fun body hp =>
    ⟨_, tokenize_pieces hp⟩⟩, fun _ => lexeme_unterminated, fun _ => lexeme_badEscape,
    fun e he => ?_, fun s e he => ?_⟩
  · exact (lexeme_quote_fault he).imp id fun ⟨sequence, _, hf⟩ => ⟨sequence, hf⟩
  · obtain ⟨a, us, c, b, -, -, -, hl⟩ := scanned_of_error he
    exact lexeme_fault hl

/-- an escape of four digits and one of a quote; the digits of a surrogate name no character, and
the error stands behind the two bytes of `é` and an escape -/
theorem lexeme_literal_surrogate :
    lexeme false 0 '"' "a\\u00E9\\\"\"x".toList = .ok (.string "aé\"", 10) ∧
      ∃ sequence, lexeme false 7 '"' "é\\n\\ud800\"".toList =
        .error ⟨7 + 1 + 4, .invalidEscape sequence⟩ := by
  constructor
  · refine ((lexeme_literal false 0 _).1 _ _).2
      ⟨"a\\u00E9\\\"".toList, ['a', 'é', '"'], ['x'], by decide, ?_, by decide, by decide⟩
    have hq : Pieces ['\\', '"'] ['"'] := .escape (.short (by decide)) .nil
    have he : Escape ['u', '0', '0', 'E', '9'] 'é' :=
      .unicode (i := 0) (j := 0) (k := 14) (l := 9) (by decide) (by decide) (by decide) (by decide)
        (by decide)
    exact .plain (by decide) (by decide) (.escape he hq)
  · refine ((lexeme_literal false 7 _).2.2.2.1 _).2 ⟨"é\\n\\ud800".toList, ['é', '\\', 'n'], [],
      by decide, ?_, ⟨['é', '\n'], "ud800".toList, by decide, ?_, ?_⟩, by decide⟩
    · have he : Escape ['n'] '\n' := .short (by decide)
      exact .plain (by decide) (by decide) (he.body_iff.2 (.escaped 'u' (.plain (by decide)
        (by decide) (.plain (by decide) (by decide) (.plain (by decide) (by decide)
          (.plain (by decide) (by decide) .nil))))))
    · exact .plain (by decide) (by decide) (.escape (.short (by decide)) .nil)
    · exact escape_isOk_eq_false.1 (by decide)

end ExprLang
