import ExprLang.Proofs.Grammar.Completeness

/-!
# The parser accepts the grammar

`parseTokens_exact`: within its limits the parser gives the tree that the tokens derive, and fails if
they derive none.  No tokens derive two trees, whatever the limits, since the parser could read only
one of them.
-/

namespace ExprLang

theorem Reads.unique {n : Nat} {α : Type} {r : Except ParseError (Parsed n α)} {v w : α}
    {rest rest' : List Token} (h : Reads r v rest) (h' : Reads r w rest') : v = w := by
  obtain ⟨_, rfl⟩ := h
  obtain ⟨_, h'⟩ := h'
  cases h'
  rfl

theorem Parser.whole_eq_ok {p : Parser} {ts : List Token} {e : Expr} :
    p.whole ts = .ok e ↔ ∃ rest, Reads (p.expression 0 ts) e rest ∧ isEnd rest = true := by
  rw [Parser.whole]
  cases p.expression 0 ts with
  | error x =>
    refine ⟨nofun, ?_⟩
    intro h0
    obtain ⟨rest, h, -⟩ := h0
    exact absurd h reads_error
  | ok a =>
    show (if isEnd a.rest then Except.ok a.value else Except.error _) = Except.ok e ↔ _
    simp only [reads_ok]
    constructor
    · intro h
      split at h
      · next he =>
        cases h
        exact ⟨a.rest, ⟨rfl, rfl⟩, he⟩
      · cases h
    · intro h0
      obtain ⟨rest, ⟨rfl, rfl⟩, he⟩ := h0
      rw [if_pos he]

/-- the tokens of a derivation are all read, up to the end -/
theorem Derives.reads {p : Parser} {ts rest : List Token} {e : Expr}
    (h : Derives p.maxChain p.maxNesting (ts.map Token.kind) (.expression e)) (he : Ends 0 rest) :
    Reads (p.expression 0 (ts ++ rest)) e rest :=
  h.readable 0 ts rest (Nat.zero_add _) rfl he

theorem Derives.parseTokens_eq {o : ParseOptions} {ts : List Token} {stop : Token} {e : Expr}
    (h : Derives o.maxChainLength o.maxNestingDepth (ts.map Token.kind) (.expression e))
    (hstop : stop.kind = .eof) : parseTokens o (ts ++ [stop]) = .ok e := by
  rw [parseTokens, Parser.whole_eq_ok]
  refine ⟨[stop], h.reads (ends_of_kind hstop rfl), ?_⟩
  rw [Parser.isEnd, hstop]
  rfl

theorem Derives.tree_unique {c c' n n' : Nat} {ks : List TokenKind} {e e' : Expr}
    (h : Derives c n ks (.expression e)) (h' : Derives c' n' ks (.expression e')) : e = e' := by
  let p : Parser := ⟨max n n', max c c', 0⟩
  let ts : List Token := ks.map fun k => ⟨k, .point 0⟩
  have hts : ts.map Token.kind = ks := by simp [ts, Function.comp_def]
  have he : Ends 0 [] := fun _ _ _ hn _ => absurd hn Parser.not_next_nil
  have h1 : Derives p.maxChain p.maxNesting (ts.map Token.kind) (.expression e) :=
    hts ▸ h.mono (Nat.le_max_left ..) (Nat.le_max_left ..)
  have h2 : Derives p.maxChain p.maxNesting (ts.map Token.kind) (.expression e') :=
    hts ▸ h'.mono (Nat.le_max_right ..) (Nat.le_max_right ..)
  exact (h1.reads he).unique (h2.reads he)

/-- what is read up to the end is all but the last token -/
theorem Parser.used_eq_of_isEnd {ts used rest : List Token} {stop : Token}
    (h : ts ++ [stop] = used ++ rest) (hts : ∀ t ∈ ts, t.kind ≠ .eof)
    (hused : ∀ t ∈ used, t.kind ≠ .eof) (hstop : stop.kind = .eof) (he : isEnd rest = true) :
    used = ts := by
  cases rest with
  | nil =>
    -- then `stop` is one of the tokens that were read, but none of them is an `eof`
    have hs : stop ∈ used := by
      rw [List.append_nil] at h
      rw [← h]
      simp
    exact absurd hstop (hused stop hs)
  | cons t rest =>
    have ht : t.kind = .eof := by simpa [isEnd] using he
    rcases List.append_eq_append_iff.1 h with ⟨us, rfl, h1⟩ | ⟨us, rfl, h1⟩
    · cases us with
      | nil => exact List.append_nil ts
      | cons u us =>
        obtain ⟨rfl, -⟩ := List.cons_eq_cons.1 h1
        exact absurd hstop (hused stop (by simp))
    · cases us with
      | nil => exact (List.append_nil used).symm
      | cons u us =>
        obtain ⟨rfl, -⟩ := List.cons_eq_cons.1 h1
        exact absurd ht (hts t (by simp))

theorem derives_of_parseTokens {o : ParseOptions} {ts : List Token} {stop : Token} {e : Expr}
    (hstop : stop.kind = .eof) (hts : ∀ t ∈ ts, t.kind ≠ .eof)
    (h : parseTokens o (ts ++ [stop]) = .ok e) :
    Derives o.maxChainLength o.maxNestingDepth (ts.map Token.kind) (.expression e) := by
  obtain ⟨rest, hr, hend⟩ := Parser.whole_eq_ok.1 h
  obtain ⟨used, heq, hd⟩ :=
    Parser.expression_sound _ _ 0 o.maxNestingDepth e rest (Nat.zero_add _) hr
  have hused : ∀ t ∈ used, t.kind ≠ .eof := fun t ht hk =>
    hd.eof_not_mem (hk ▸ List.mem_map_of_mem ht)
  rwa [← Parser.used_eq_of_isEnd heq hts hused hstop hend]

theorem parseTokens_exact (o : ParseOptions) (ts : List Token) (stop : Token)
    (hstop : stop.kind = .eof) (hts : ∀ t ∈ ts, t.kind ≠ .eof) :
    (∀ e, parseTokens o (ts ++ [stop]) = .ok e ↔
      Derives o.maxChainLength o.maxNestingDepth (ts.map Token.kind) (.expression e)) ∧
    ∀ c c' n n' ks e e', Derives c n ks (.expression e) → Derives c' n' ks (.expression e') →
      e = e' := by
  refine ⟨fun e => ?_, fun c c' n n' ks e e' h h' => h.tree_unique h'⟩
  rw [parseTokens, Parser.whole_eq_ok]
  constructor
  · intro h0
    obtain ⟨rest, hr, hend⟩ := h0
    obtain ⟨used, h, hd⟩ :=
      Parser.expression_sound _ _ 0 o.maxNestingDepth e rest (Nat.zero_add _) hr
    have hused : ∀ t ∈ used, t.kind ≠ .eof := fun t ht hk =>
      hd.eof_not_mem (hk ▸ List.mem_map_of_mem ht)
    rwa [← Parser.used_eq_of_isEnd h hts hused hstop hend]
  · intro h
    refine ⟨[stop], h.reads (ends_of_kind hstop rfl), ?_⟩
    rw [Parser.isEnd, hstop]
    rfl

/-- `a - b * c` is just within the limits 1 and 1 -/
theorem parseTokens_difference :
    let ts : List Token := [⟨.identifier "a", ⟨0, 1⟩⟩, ⟨.operator .subtract, ⟨2, 3⟩⟩,
      ⟨.identifier "b", ⟨4, 5⟩⟩, ⟨.operator .multiply, ⟨6, 7⟩⟩, ⟨.identifier "c", ⟨8, 9⟩⟩]
    let stop : Token := ⟨.eof, ⟨9, 9⟩⟩
    stop.kind = .eof ∧ (∀ t ∈ ts, t.kind ≠ .eof) ∧
      parseTokens ⟨false, 1, 1⟩ (ts ++ [stop]) =
        .ok (.binary (.var "a") .subtract (.binary (.var "b") .multiply (.var "c"))) := by
  intro ts stop
  have hts : ∀ t ∈ ts, t.kind ≠ .eof := by decide
  have var (name : String) : Derives 1 0 [.identifier name] (.binary 7 0 (.var name)) :=
    .operand (.chain (.primary (.atom (.variable name))) (Nat.zero_le 1))
  have product : Derives 1 0 [.identifier "b", .operator .multiply, .identifier "c"]
      (.binary 6 1 (.binary (.var "b") .multiply (.var "c"))) :=
    .link .multiply rfl (.tighter (var "b")) (var "c") (Nat.zero_le 1)
  have difference : Derives 1 0 (ts.map Token.kind) (.binary 5 1
      (.binary (.var "a") .subtract (.binary (.var "b") .multiply (.var "c")))) :=
    .link .subtract rfl ((var "a").lower (by decide)) product (Nat.le_refl 1)
  refine ⟨rfl, hts, ((parseTokens_exact ⟨false, 1, 1⟩ ts stop rfl hts).1 _).2 ?_⟩
  exact .expression (.plain (difference.lower (by decide)) (Nat.le_refl 1))

end ExprLang
