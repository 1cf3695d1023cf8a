import Mathlib
import ExprLang.Proofs.Grammar.Exactness
import ExprLang.Proofs.Grammar.Viability

/-!
# The first impossible token

`parseTokens_unexpected`: the token that an error names is the first one that makes its tokens
impossible.  What stands in front of it can be gone on with to an accepted list; with it, no list is
accepted, whatever follows and whatever the limits.
-/

namespace ExprLang

/-- a viable list can be gone on with to an accepted one -/
theorem Viable.exists_accepted {o : ParseOptions} {us : List Token} {stop : Token}
    (h : Viable o.maxChainLength o.maxNestingDepth .expression (us.map Token.kind))
    (hstop : stop.kind = .eof) : ∃ more e, (∀ u ∈ more, u.kind ≠ .eof) ∧
      parseTokens o (us ++ more ++ [stop]) = .ok e := by
  obtain ⟨ls, e, hd⟩ := h
  let more : List Token := ls.map fun k => ⟨k, .point 0⟩
  have hmore : more.map Token.kind = ls := by simp [more, Function.comp_def]
  refine ⟨more, e, fun u hu hk => ?_, ?_⟩
  · exact hd.eof_not_mem (List.mem_append_right _ (hmore ▸ hk ▸ List.mem_map_of_mem hu))
  · rw [← hmore, ← List.map_append] at hd
    exact hd.parseTokens_eq hstop

/-- the token of the error is the first one that no accepted list goes on with -/
theorem parseTokens_unexpected {o : ParseOptions} {ts : List Token} {stop : Token} {position : Nat}
    {expected found : String} (hstop : stop.kind = .eof) (hts : ∀ t ∈ ts, t.kind ≠ .eof)
    (h : parseTokens o (ts ++ [stop]) = .error (.unexpectedToken position expected found)) :
    ∃ before t after, ts ++ [stop] = before ++ t :: after ∧ position = t.position ∧
      found = (if t.kind = .eof then "end of input" else "'" ++ t.kind.toText ++ "'") ∧
      (∃ more e, (∀ u ∈ more, u.kind ≠ .eof) ∧
        parseTokens o (before ++ more ++ [stop]) = .ok e) ∧
      (t.kind = .eof → before = ts) ∧
      (t.kind ≠ .eof → ∀ o' more e, parseTokens o' (before ++ t :: more) ≠ .ok e) := by
  obtain ⟨us, rest, x, heq, hx, hV⟩ := Parser.exists_decided ⟨o.maxNestingDepth, o.maxChainLength,
    ((ts ++ [stop]).getLast?.map Token.position).getD 0⟩ (ts ++ [stop])
  have hself := hx.self
  rw [← heq] at hself
  have hself := hself.symm.trans h
  obtain ⟨ex, rfl⟩ : ∃ ex, x = .error (.unexpected ex) := by
    cases x with
    | ok v => cases hself
    | error x =>
      cases x with
      | unexpected ex => exact ⟨ex, rfl⟩
      | nesting => cases hself
      | chain => cases hself
  have hviable := hV ex rfl
  have hus : ∀ t ∈ us, t.kind ≠ .eof := by
    obtain ⟨ls, e, hd⟩ := hviable
    exact fun t ht hk => hd.eof_not_mem (List.mem_append_left _ (hk ▸ List.mem_map_of_mem ht))
  cases rest with
  | nil =>
    have hmem : stop ∈ us := by
      rw [List.append_nil] at heq
      rw [← heq]
      exact List.mem_append_right _ (List.mem_singleton_self _)
    exact absurd hstop (hus stop hmem)
  | cons t after =>
    cases hself
    refine ⟨us, t, after, heq, rfl, rfl, hviable.exists_accepted hstop, fun ht => ?_,
      fun _ o' more => ?_⟩
    · refine Parser.used_eq_of_isEnd heq hts hus hstop ?_
      rw [Parser.isEnd, ht]
      rfl
    · have hmore : SameNext (t :: after) (t :: more) := rfl
      exact hx.whole_ne_ok _ hmore

/-- in `f(a b`, no list goes on with the second name; the tokens in front of it do -/
theorem parseTokens_unexpected_argument :
    let stop : Token := ⟨.eof, ⟨5, 5⟩⟩
    let ts : List Token := [⟨.identifier "f", ⟨0, 1⟩⟩, ⟨.leftParen, ⟨1, 2⟩⟩,
      ⟨.identifier "a", ⟨2, 3⟩⟩, ⟨.identifier "b", ⟨4, 5⟩⟩]
    stop.kind = .eof ∧ (∀ t ∈ ts, t.kind ≠ .eof) ∧
      parseTokens {} (ts ++ [stop]) = .error (.unexpectedToken 4 "',' or ')'" "'b'") ∧
      ∃ before t after, ts ++ [stop] = before ++ t :: after ∧ 4 = t.position ∧
        ∀ o' more e, parseTokens o' (before ++ t :: more) ≠ .ok e := by
  intro stop ts
  have hts : ∀ t ∈ ts, t.kind ≠ .eof := by decide
  have h : parseTokens {} (ts ++ [stop]) =
      .error (.unexpectedToken 4 "',' or ')'" "'b'") := by
    subst ts stop
    cbv
  obtain ⟨before, t, after, heq, hp, hf, -, -, hno⟩ := parseTokens_unexpected rfl hts h
  have ht : t.kind ≠ .eof := by
    intro ht
    rw [if_pos ht] at hf
    exact absurd hf (by decide)
  exact ⟨rfl, hts, h, before, t, after, heq, hp, hno ht⟩

end ExprLang
