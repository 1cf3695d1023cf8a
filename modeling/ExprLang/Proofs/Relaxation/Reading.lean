import ExprLang.Proofs.Grammar.Viability
import ExprLang.Proofs.Token.Lexeme

/-!
# Reading a text under relaxed options

* `LexError.Lifted single single'`   the error of a lone `=`, which only the first setting forbids;
* `Parser.Lifted p q`                the error that a limit is crossed, which is greater in `q`;
* `SyntaxError.Lifted o o'`          either of them;
* `ParseOptions.Under o o'`          the options `o'` allow at least as much as `o`.

`parse_below`: a text is read alike under options that allow more, unless its error is lifted.  The
limits are only checked, in front of what is read, and never change what is read.
-/

namespace ExprLang

/-! ## tokens -/

def LexError.Lifted (single single' : Bool) (e : LexError) : Prop :=
  e.fault = .singleEqualSign ∧ single ≠ single'

/-- the lone `=` is the only symbol that a text may have under one setting alone -/
theorem symbol?_relaxed (cs : List Char) : symbol? true cs = symbol? false cs ∨
    symbol? false cs = none ∧ ∃ rest, cs = '=' :: rest := by
  let p (s : List Char × TokenKind) : Bool := s.1.isPrefixOf cs
  obtain ⟨xs, ys, ht, hf, hys⟩ : ∃ xs ys,
      symbols true = xs ++ ([(['='], .operator .equal)] ++ ys) ∧
      symbols false = xs ++ ys ∧ ∀ s ∈ ys, s.1.head? ≠ some '=' :=
    ⟨[(['=', '=', '='], .operator .strictEqual), (['=', '='], .operator .equal)], _, rfl, rfl,
      by decide⟩
  have htrue : symbol? true cs =
      (xs.find? p).or (([(['='], .operator .equal)].find? p).or (ys.find? p)) := by
    rw [symbol?, ht, List.find?_append, List.find?_append]
  have hfalse : symbol? false cs = (xs.find? p).or (ys.find? p) := by
    rw [symbol?, hf, List.find?_append]
  cases hp : ['='].isPrefixOf cs with
  | false =>
    have hnone : [(['='], TokenKind.operator .equal)].find? p = none := by simp [p, hp]
    rw [htrue, hfalse, hnone]
    exact .inl rfl
  | true =>
    obtain ⟨rest, rfl⟩ := List.isPrefixOf_iff_prefix.1 hp
    cases hx : xs.find? p with
    | some s =>
      rw [htrue, hfalse, hx]
      exact .inl rfl
    | none =>
      have hnone : ys.find? p = none := by
        rw [List.find?_eq_none]
        intro s hs hps
        have hm : s ∈ symbols false := by
          rw [hf]
          exact List.mem_append_right xs hs
        obtain ⟨c, w, hw, -⟩ := symbols_start false hm
        have hne := hys s hs
        rw [hw, List.head?_cons] at hne
        simp only [p, hw, List.cons_append, List.isPrefixOf_cons_cons, Bool.and_eq_true,
          beq_iff_eq] at hps
        exact hne (congrArg some hps.1)
      rw [hfalse, hx, hnone]
      exact .inr ⟨rfl, rest, rfl⟩

section
variable {single single' : Bool} (h : single = true → single' = true)
include h

theorem lexeme_below (o : Nat) (c : Char) (rest : List Char) :
    Below (LexError.Lifted single single') (lexeme single o c rest) (lexeme single' o c rest) := by
  by_cases hs : single' = single
  · rw [hs]
    exact .refl _
  · obtain ⟨rfl, rfl⟩ : single = false ∧ single' = true := by
      cases single with
      | false => exact ⟨rfl, by simpa using hs⟩
      | true => exact absurd (h rfl) hs
    rcases symbol?_relaxed (c :: rest) with he | ⟨hn, r, hr⟩
    · refine .of_eq ?_
      rw [lexeme, lexeme, he]
    · cases hr
      rw [lexeme, hn]
      exact .error ⟨rfl, by simp⟩

theorem tokensFrom_below (o : Nat) (cs : List Char) :
    Below (LexError.Lifted single single') (tokensFrom single o cs) (tokensFrom single' o cs) := by
  fun_induction tokensFrom single o cs with
  | case1 o =>
    rw [tokensFrom]
    exact .refl _
  | case2 o c cs hb ih => rwa [tokensFrom, if_pos hb]
  | case3 o c cs hb e he =>
    rw [tokensFrom, if_neg hb]
    have hl := lexeme_below h o c cs
    rw [he] at hl
    rcases hl with ⟨e', he', hl⟩ | hl
    · cases he'
      exact .error hl
    · rw [hl]
      exact .refl _
  | case4 o c cs hb k n hl =>
    rename_i stop ih
    rw [tokensFrom, if_neg hb]
    have hl' := lexeme_below h o c cs
    rw [hl] at hl'
    rcases hl' with ⟨e', he', -⟩ | hl'
    · cases he'
    · rw [hl']
      exact ih.map _

end

/-! ## expressions -/

namespace Parser

def Lifted (p q : Parser) : ParseError → Prop
  | .unexpectedToken .. => False
  | .nestingTooDeep .. => p.maxNesting < q.maxNesting
  | .chainTooLong .. => p.maxChain < q.maxChain

/-- the limits of the second parser are no smaller -/
structure Under (p q : Parser) : Prop where
  nesting : p.maxNesting ≤ q.maxNesting
  chain : p.maxChain ≤ q.maxChain
  stop : p.stop = q.stop

variable {p q : Parser} (h : p.Under q)
include h

theorem position_eq (ts : List Token) : q.position ts = p.position ts := by
  cases ts with
  | nil => exact h.stop.symm
  | cons t ts => rfl

theorem unexpected_eq (ts : List Token) (expected : String) :
    q.unexpected ts expected = p.unexpected ts expected := by
  rw [unexpected, unexpected, position_eq h]

theorem fault_eq {x : Fault} (hk : p.Keeps q (.error x : Except Fault Expr)) (ts : List Token) :
    q.fault ts x = p.fault ts x := by
  cases x with
  | unexpected expected => exact unexpected_eq h ts expected
  | nesting =>
    show ParseError.nestingTooDeep _ _ = .nestingTooDeep _ _
    rw [position_eq h, hk.sameNesting rfl]
  | chain =>
    show ParseError.chainTooLong _ _ = .chainTooLong _ _
    rw [position_eq h, hk.sameChain rfl]

theorem keeps_or_lifted (x : Fault) (ts : List Token) :
    p.Keeps q (.error x : Except Fault Expr) ∨ p.Lifted q (p.fault ts x) := by
  cases x with
  | unexpected expected => exact .inl ⟨h.nesting, h.chain, nofun, nofun⟩
  | nesting =>
    rcases Nat.eq_or_lt_of_le h.nesting with he | hlt
    · exact .inl ⟨h.nesting, h.chain, fun _ => he.symm, nofun⟩
    · exact .inr hlt
  | chain =>
    rcases Nat.eq_or_lt_of_le h.chain with he | hlt
    · exact .inl ⟨h.nesting, h.chain, nofun, fun _ => he.symm⟩
    · exact .inr hlt

theorem whole_below (ts : List Token) : Below (p.Lifted q) (p.whole ts) (q.whole ts) := by
  obtain ⟨us, rest, o, rfl, ho, -⟩ := p.exists_decided ts
  cases o with
  | ok v =>
    have hq := ho q us rest ⟨h.nesting, h.chain, nofun, nofun⟩ (.refl us) (.refl rest)
    exact .of_eq (hq.trans ho.self.symm)
  | error x =>
    rcases keeps_or_lifted h x rest with hk | hl
    · have hq := ho q us rest hk (.refl us) (.refl rest)
      refine .of_eq (hq.trans (Eq.trans ?_ ho.self.symm))
      exact congrArg Except.error (fault_eq h hk rest)
    · rw [ho.self]
      exact .error hl

end Parser

/-! ## texts -/

/-- options that allow at least as much -/
structure ParseOptions.Under (o o' : ParseOptions) : Prop where
  single : o.allowSingleEqualSign = true → o'.allowSingleEqualSign = true
  nesting : o.maxNestingDepth ≤ o'.maxNestingDepth
  chain : o.maxChainLength ≤ o'.maxChainLength

def SyntaxError.Lifted (o o' : ParseOptions) : SyntaxError → Prop
  | .lex e => e.fault = .singleEqualSign ∧ o.allowSingleEqualSign ≠ o'.allowSingleEqualSign
  | .parse (.unexpectedToken ..) => False
  | .parse (.nestingTooDeep ..) => o.maxNestingDepth < o'.maxNestingDepth
  | .parse (.chainTooLong ..) => o.maxChainLength < o'.maxChainLength

theorem parse_below {o o' : ParseOptions} (h : o.Under o') (s : String) :
    Below (SyntaxError.Lifted o o') (parse o s) (parse o' s) := by
  rw [parse, parse]
  rcases tokensFrom_below h.single 0 s.toList with ⟨e, he, hl⟩ | ht
  · rw [tokenize, he]
    exact .error hl
  · rw [tokenize, tokenize, ht]
    split
    · exact .refl _
    · next ts _ =>
      rw [parseTokens, parseTokens]
      have hu : Parser.Under ⟨o.maxNestingDepth, o.maxChainLength,
          (ts.getLast?.map Token.position).getD 0⟩ ⟨o'.maxNestingDepth, o'.maxChainLength,
          (ts.getLast?.map Token.position).getD 0⟩ := ⟨h.nesting, h.chain, rfl⟩
      rcases Parser.whole_below hu ts with ⟨e, he, hl⟩ | hw
      · rw [he]
        cases e with
        | unexpectedToken p x f => exact absurd hl id
        | nestingTooDeep p n => exact .error hl
        | chainTooLong p n => exact .error hl
      · rw [hw]
        exact .refl _

end ExprLang
