import Mathlib
import ExprLang.Engine
import ExprLang.Proofs.Grammar.Moving
import ExprLang.Proofs.Token.Coverage
import ExprLang.Proofs.Token.Moving

/-!
# Blanks mean nothing

* `SyntaxError.moved f e`   the error with the position changed by `f`.

`parse_spacing`: a text is read like every other text with its tokens and blanks between them, but
for the positions of errors; and it is read like the trimmed text, where the positions are less by
what was trimmed in front, and none is behind the end.
-/

namespace ExprLang

open Text

def SyntaxError.moved (f : Nat → Nat) : SyntaxError → SyntaxError
  | .lex e => .lex (e.moved f)
  | .parse e => .parse (e.moved f)

section
variable {f : Nat → Nat} {o : ParseOptions} {s s' : String} {ts us : List Token}

theorem parse_of_tokens (h : tokenize o.allowSingleEqualSign s = .ok ts) :
    parse o s = (parseTokens o ts).mapError .parse := by
  rw [parse, h]
  dsimp only
  cases parseTokens o ts <;> rfl

theorem parse_of_error {e : LexError} (h : tokenize o.allowSingleEqualSign s = .error e) :
    parse o s = .error (.lex e) := by
  rw [parse, h]

theorem mapError_parse_moved {α : Type} (r : Except ParseError α) :
    (r.mapError SyntaxError.parse).mapError (SyntaxError.moved f) =
      (r.mapError (ParseError.moved f)).mapError SyntaxError.parse := by
  cases r <;> rfl

/-! ## other blanks -/

/-- tokens of the kinds, all at the start -/
theorem sameUpTo_zero {ks : List TokenKind} (h : ts.map Token.kind = ks) :
    SameUpTo (fun _ => 0) (ks.map fun k => ⟨k, .point 0⟩) ts := by
  subst h
  rw [SameUpTo, List.map_map, List.map_map]
  rfl

/-- texts with tokens of the same kinds are read alike, but for positions -/
theorem parse_of_kinds (hs : tokenize o.allowSingleEqualSign s = .ok ts)
    (hs' : tokenize o.allowSingleEqualSign s' = .ok us)
    (hk : us.map Token.kind = ts.map Token.kind) (hne : ts ≠ []) :
    (parse o s').mapError (SyntaxError.moved fun _ => 0) =
      (parse o s).mapError (SyntaxError.moved fun _ => 0) := by
  have hne' : (ts.map Token.kind).map (fun k => (⟨k, .point 0⟩ : Token)) ≠ [] := by simpa using hne
  rw [parse_of_tokens hs, parse_of_tokens hs', mapError_parse_moved, mapError_parse_moved,
    ← parseTokens_moved (sameUpTo_zero hk) hne', ← parseTokens_moved (sameUpTo_zero rfl) hne']

end

theorem parse_spread {single : Bool} {s : String} {ts : List Token} {cs : List Char}
    (h : tokenize single s = .ok ts) (hc : Spread (words single s.toList) cs) :
    (∃ us, tokenize single (String.ofList cs) = .ok us ∧
        us.map Token.kind = ts.map Token.kind) ∧
      ∀ o : ParseOptions, o.allowSingleEqualSign = single →
        (parse o (String.ofList cs)).mapError (SyntaxError.moved fun _ => 0) =
          (parse o s).mapError (SyntaxError.moved fun _ => 0) := by
  obtain ⟨us, rfl, hus⟩ := scanned_of_ok h
  obtain ⟨vs, hvs, hk⟩ := hus.spread hc 0
  have hok : tokenize single (String.ofList cs) =
      .ok (vs ++ [endToken (0 + byteLength cs)]) := by
    rw [tokenize, String.toList_ofList]
    exact hvs.ok
  have hk : (vs ++ [endToken (0 + byteLength cs)]).map Token.kind =
      (us ++ [endToken (0 + byteLength s.toList)]).map Token.kind := by
    rw [List.map_append, List.map_append, hk]
    rfl
  refine ⟨⟨_, hok, hk⟩, ?_⟩
  rintro o rfl
  exact parse_of_kinds h hok hk (by simp)

/-! ## no blanks at the ends -/

theorem exists_trimmed (cs : List Char) :
    ∃ b, cs = cs.takeWhile isBlank ++ (trimChars cs ++ b) ∧ ∀ c ∈ b, isBlank c = true := by
  let ds := cs.dropWhile isBlank
  refine ⟨(ds.reverse.takeWhile isBlank).reverse, ?_, fun c hc => ?_⟩
  · have hds : ds = trimEnd ds ++ (ds.reverse.takeWhile isBlank).reverse := by
      rw [trimEnd, ← List.reverse_append, List.takeWhile_append_dropWhile, List.reverse_reverse]
    rw [trimChars, trimStart, ← hds, List.takeWhile_append_dropWhile]
  · exact pos_of_mem_takeWhile c (List.mem_reverse.1 hc)

theorem Scanned.position_le {single : Bool} {n : Nat} {cs rest : List Char} {ts : List Token}
    (h : Scanned single n cs ts rest) (hn : n + byteLength cs < 4294967296) :
    ∀ t ∈ ts, t.position ≤ n + byteLength cs := by
  intro t ht
  obtain ⟨a, c, w, b, rfl, -, hspan, -⟩ := h.mem ht
  rw [byteLength_append] at hn ⊢
  rw [Token.position, hspan, Span.ofOffsets_start (by omega)]
  exact Nat.add_le_add_left (Nat.le_add_right ..) n

/-- `k` bytes in front of the tokens and `l` behind them do not count -/
theorem sameUpTo_trim {ts : List Token} {k l n : Nat} (hn : k + n + l < 4294967296)
    (h : ∀ t ∈ ts, t.position ≤ n) :
    SameUpTo (fun p => min (p - k) n) (ts ++ [endToken n])
      (ts.map (Token.moved k) ++ [endToken (k + n + l)]) := by
  have hend (m : Nat) (hm : m < 4294967296) : (endToken m).position = m :=
    Span.ofOffsets_start hm
  rw [SameUpTo, List.map_append, List.map_append, List.map_map]
  refine congr (congrArg _ (List.map_congr_left fun t ht => ?_)) ?_
  · have ht := h t ht
    show (t.kind, min ((t.moved k).position - k) n) = (t.kind, t.position)
    rw [Token.position_moved (by omega), Nat.add_sub_cancel, Nat.min_eq_left ht]
  · rw [List.map_singleton, List.map_singleton, hend _ hn, hend n (by omega)]
    have hm : min (k + n + l - k) n = n := by omega
    rw [hm]
    rfl

theorem parse_trim (o : ParseOptions) {s : String} (hn : byteLength s.toList < 4294967296) :
    parse o (trim s) = (parse o s).mapError (SyntaxError.moved fun p =>
      min (p - byteLength (s.toList.takeWhile isBlank)) (byteLength (trim s).toList)) := by
  obtain ⟨b, hs, hb⟩ := exists_trimmed s.toList
  have hblank : ∀ c ∈ s.toList.takeWhile isBlank, isBlank c = true := pos_of_mem_takeWhile
  generalize s.toList.takeWhile isBlank = a at hs hblank ⊢
  rw [← toList_trim] at hs
  have htok : tokenize o.allowSingleEqualSign s =
      tokensFrom o.allowSingleEqualSign (0 + byteLength a) ((trim s).toList ++ b) := by
    rw [tokenize, hs, (scanned_blanks hblank).tokensFrom]
    cases tokensFrom o.allowSingleEqualSign (0 + byteLength a) ((trim s).toList ++ b) <;> rfl
  rw [hs, byteLength_append, byteLength_append] at hn
  cases ht : tokenize o.allowSingleEqualSign (trim s) with
  | error e =>
    have hle := (fails_of_error ht).inside
    have hmoved := tokensFrom_moved_error (byteLength a) ht hb
    rw [parse_of_error ht, parse_of_error (htok.trans hmoved)]
    show Except.error (SyntaxError.lex e) = .error (.lex ⟨min (e.position + _ - _) _, e.fault⟩)
    rw [Nat.add_sub_cancel, Nat.min_eq_left hle]
  | ok ts =>
    obtain ⟨us, rfl, hus⟩ := scanned_of_ok ht
    have hmoved := tokensFrom_moved_ok (byteLength a) hus hb
    rw [Nat.zero_add] at ht hmoved htok
    rw [byteLength_append, ← Nat.add_assoc] at hmoved
    have hle := hus.position_le (by omega)
    rw [Nat.zero_add] at hle
    rw [parse_of_tokens ht, parse_of_tokens (htok.trans hmoved), mapError_parse_moved,
      ← parseTokens_moved (sameUpTo_trim (by omega) hle) (by simp)]

theorem parse_spacing :
    (∀ single s ts, tokenize single s = .ok ts →
      (byteLength s.toList < 4294967296 →
        ts.dropLast.map (fun t => (t.span.slice s).toList) = words single s.toList) ∧
      ∀ cs, Spread (words single s.toList) cs →
        (∃ us, tokenize single (String.ofList cs) = .ok us ∧
          us.map Token.kind = ts.map Token.kind) ∧
        ∀ o : ParseOptions, o.allowSingleEqualSign = single →
          (parse o (String.ofList cs)).mapError (SyntaxError.moved fun _ => 0) =
            (parse o s).mapError (SyntaxError.moved fun _ => 0)) ∧
    (∀ o s, byteLength s.toList < 4294967296 →
      parse o (trim s) = (parse o s).mapError (SyntaxError.moved fun p =>
        min (p - byteLength (s.toList.takeWhile isBlank)) (byteLength (trim s).toList))) ∧
    ∀ (g : Engine) s, (g.parse s).map Expression.tree = parse g.config.parseOptions (trim s) := by
  refine ⟨fun single s ts h => ⟨fun hn => ?_, fun cs hc => parse_spread h hc⟩,
    fun o s hn => parse_trim o hn, fun g s => ?_⟩
  · obtain ⟨us, rfl, hus⟩ := scanned_of_ok h
    rw [List.dropLast_concat]
    exact Scanned.slices (a := []) hus rfl hn
  · rw [Engine.parse, Engine.tree]
    cases parse g.config.parseOptions (trim s) <;> rfl

/-- a sum with blanks; two names without an operator, where the error moves with the second one -/
theorem parse_spacing_names :
    (∃ ts, tokenize false "a+b" = .ok ts ∧ Spread (words false "a+b".toList) " a +\tb".toList ∧
      ∃ us, tokenize false " a +\tb" = .ok us ∧ us.map Token.kind = ts.map Token.kind) ∧
    byteLength "  a b ".toList < 4294967296 ∧
    parse {} "  a b " = .error (.parse (.unexpectedToken 4 "end of input" "'b'")) ∧
    parse {} (trim "  a b ") = .error (.parse (.unexpectedToken 2 "end of input" "'b'")) := by
  obtain ⟨ht, hw, herr⟩ :
      tokenize false "a+b" = .ok [⟨.identifier "a", ⟨0, 1⟩⟩, ⟨.operator .add, ⟨1, 2⟩⟩,
        ⟨.identifier "b", ⟨2, 3⟩⟩, ⟨.eof, ⟨3, 3⟩⟩] ∧
      words false "a+b".toList = [['a'], ['+'], ['b']] ∧
      parse {} "  a b " = .error (.parse (.unexpectedToken 4 "end of input" "'b'")) :=
    ⟨by cbv, by cbv, by cbv⟩
  have hs : Spread (words false "a+b".toList) " a +\tb".toList := by
    rw [hw]
    have hb : Spread [['b']] ['b'] := .word (fun h => absurd rfl h) .nil
    have hp : Spread [['+'], ['b']] ['+', '\t', 'b'] :=
      .word (fun _ => ⟨'\t', ['b'], rfl, by decide⟩) (.blank (by decide) hb)
    exact .blank (by decide)
      (.word (fun _ => ⟨' ', ['+', '\t', 'b'], rfl, by decide⟩) (.blank (by decide) hp))
  have hn : byteLength "  a b ".toList < 4294967296 := by decide
  refine ⟨⟨_, ht, hs, ((parse_spacing.1 false _ _ ht).2 _ hs).1⟩, hn, herr, ?_⟩
  have hlen : byteLength ("  a b ".toList.takeWhile isBlank) = 2 := by decide
  have htrim : byteLength (trim "  a b ").toList = 3 := by decide
  rw [parse_spacing.2.1 {} _ hn, herr, hlen, htrim]
  rfl

end ExprLang
