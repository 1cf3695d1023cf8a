import ExprLang.Proofs.Grammar.Soundness

/-!
# What is derived is read

* `Parser.Readable`   the tokens are read as the phrase, in front of any tokens that do not go on
                      with it;
* `Derives.readable`  a derivation within the limits of a parser makes its tokens readable.

The operands of a run of operators are read at the level they are derived at.  A reader of a run may
have started at a looser level; so what is said of a run is that the reader gets to the loop behind
the run with the run's tree and length in hand.
-/

namespace ExprLang

theorem ends_cons {k : Nat} {t : Token} {ts : List Token} :
    Ends k (t :: ts) ↔ ∀ g, t.kind.hold? = some g → g < k := by
  constructor
  · intro h g hg
    exact h t.kind ts g (Parser.next_cons.2 ⟨rfl, rfl⟩) hg
  · intro h kind r g hn hg
    obtain ⟨rfl, -⟩ := Parser.next_cons.1 hn
    exact h g hg

theorem ends_of_kind {k : Nat} {t : Token} {ts : List Token} {kind : TokenKind}
    (ht : t.kind = kind) (h : kind.hold? = none) : Ends k (t :: ts) := by
  rw [ends_cons, ht, h]
  exact nofun

/-- tokens of the kinds of two lists with a kind between them -/
theorem map_kind_split {ts : List Token} {ks ls : List TokenKind} {k : TokenKind}
    (h : ts.map Token.kind = ks ++ k :: ls) :
    ∃ us t vs, ts = us ++ t :: vs ∧ us.map Token.kind = ks ∧ t.kind = k ∧
      vs.map Token.kind = ls := by
  obtain ⟨us, ws, rfl, hus, hws⟩ := List.map_eq_append_iff.1 h
  obtain ⟨t, vs, rfl, ht, hvs⟩ := List.map_eq_cons_iff.1 hws
  exact ⟨us, t, vs, rfl, hus, ht, hvs⟩

namespace Parser

def Readable (p : Parser) (n : Nat) (ks : List TokenKind) : Phrase → Prop
  | .expression e => ∀ d ts rest, d + n = p.maxNesting → ts.map Token.kind = ks → Ends 0 rest →
      Reads (p.expression d (ts ++ rest)) e rest
  | .ternary e => ∀ d ts rest, d + n = p.maxNesting → ts.map Token.kind = ks → Ends 0 rest →
      Reads (p.ternary d (ts ++ rest)) e rest
  | .binary k s e => ∀ d ts rest least v r, d + n = p.maxNesting → ts.map Token.kind = ks →
      Ends (k + 1) rest → s ≤ p.maxChain → least ≤ k →
      Reads (p.links d least s e rest) v r → Reads (p.binary d least (ts ++ rest)) v r
  | .unary e => ∀ d ts rest, d + n = p.maxNesting → ts.map Token.kind = ks → Ends 8 rest →
      Reads (p.unary d (ts ++ rest)) e rest
  | .chain s e => ∀ d ts rest v r, d + n = p.maxNesting → ts.map Token.kind = ks →
      s ≤ p.maxChain → Reads (p.trailers d s e rest) v r → Reads (p.chain d (ts ++ rest)) v r
  | .primary e => ∀ d ts rest, d + n = p.maxNesting → ts.map Token.kind = ks →
      Reads (p.primary d (ts ++ rest)) e rest
  | .items es => ∀ d ts t rest expected, d + n = p.maxNesting → ts.map Token.kind = ks →
      t.kind = .rightParen ∨ t.kind = .rightBrace →
      Reads (p.items d t.kind expected (ts ++ t :: rest)) es rest
  | .entries ps => ∀ d ts t rest, d + n = p.maxNesting → ts.map Token.kind = ks →
      t.kind = .rightBrace → Reads (p.pairs d (ts ++ t :: rest)) ps rest

section
variable {p : Parser} {d : Nat} {ts rest : List Token}

theorem links_stop {least s : Nat} {e : Expr} (h : Ends least ts) (hk : least ≤ 8) :
    Reads (p.links d least s e ts) e ts :=
  p.reads_links.2 (.inl ⟨((ends_iff hk).1 h).2.1, rfl, rfl⟩)

theorem trailers_stop {s : Nat} {e : Expr} (h : Ends 8 ts) : Reads (p.trailers d s e ts) e ts :=
  p.reads_trailers.2 (.inl ⟨((ends_iff (Nat.le_refl 8)).1 h).1, rfl, rfl⟩)

/-- what starts like a phrase does not start with a closing token -/
theorem not_next_of_opens {close : TokenKind}
    (ho : ∃ k ls, ts.map Token.kind = k :: ls ∧ k.opens = true) (hc : close.opens = false)
    (us r : List Token) : ¬ Next close (ts ++ us) r := by
  obtain ⟨k, ls, hts, hk⟩ := ho
  obtain ⟨t, vs, rfl, rfl, -⟩ := List.map_eq_cons_iff.1 hts
  intro hn
  obtain ⟨rfl, -⟩ := next_cons.1 hn
  rw [hk] at hc
  cases hc

/-- a chain starts with no unary operator -/
theorem reads_unary_of_chain {e : Expr} (h : Reads (p.chain d ts) e rest) :
    Reads (p.unary d ts) e rest := by
  refine p.reads_unary.2 (.inl ⟨fun op r hn => ?_, h⟩)
  obtain ⟨t, rfl, ht⟩ := hn
  obtain ⟨f, r', hf, -⟩ := p.reads_chain.1 h
  rcases p.reads_primary.1 hf with ⟨k, hk, ha⟩ | ⟨_, _, _, hk, -⟩ | ⟨_, hk, -⟩
  · obtain ⟨rfl, -⟩ := next_cons.1 hk
    rw [ht] at ha
    cases op <;> cases ha
  · obtain ⟨hk, -⟩ := next_cons.1 hk
    rw [ht] at hk
    cases op <;> cases hk
  · obtain ⟨hk, -⟩ := next_cons.1 hk
    rw [ht] at hk
    cases op <;> cases hk

end

/-! ## one lemma for each rule -/

namespace Readable

variable {p : Parser} {n s : Nat} {ks ls ms : List TokenKind} {e f : Expr}

theorem expression (h : p.Readable n ks (.ternary e)) : p.Readable (n + 1) ks (.expression e) := by
  intro d ts rest hd hts he
  exact p.reads_expression.2 ⟨by omega, h (d + 1) ts rest (by omega) hts he⟩

theorem plain (h : p.Readable n ks (.binary 1 s e)) (hs : s ≤ p.maxChain) :
    p.Readable n ks (.ternary e) := by
  intro d ts rest hd hts he
  have hc : Reads (p.binary d 1 (ts ++ rest)) e rest :=
    h d ts rest 1 e rest hd hts (he.mono (by omega)) hs (Nat.le_refl 1)
      (links_stop (he.mono (by omega)) (by omega))
  refine p.reads_ternary.2 ⟨e, rest, hc, .inl ⟨fun r hn => ?_, rfl, rfl⟩⟩
  exact absurd (((ends_iff (by omega)).1 he).2.2 r hn) (by omega)

theorem conditional {t : Expr} (h1 : p.Readable n ks (.binary 1 s e)) (hs : s ≤ p.maxChain)
    (h2 : p.Readable n ls (.expression t)) (h3 : p.Readable n ms (.expression f)) :
    p.Readable n (ks ++ .question :: (ls ++ .colon :: ms)) (.ternary (.conditional e t f)) := by
  intro d ts rest hd hts he
  obtain ⟨us, q, ts, rfl, hus, hq, hts⟩ := map_kind_split hts
  obtain ⟨vs, c, ws, rfl, hvs, hc, hws⟩ := map_kind_split hts
  rw [List.append_assoc, List.cons_append, List.append_assoc, List.cons_append]
  have hq0 : Ends 1 (q :: (vs ++ c :: (ws ++ rest))) := by
    rw [ends_cons, hq]
    rintro g ⟨⟩
    exact Nat.one_pos
  have hcond : Reads (p.binary d 1 (us ++ q :: (vs ++ c :: (ws ++ rest)))) e
      (q :: (vs ++ c :: (ws ++ rest))) :=
    h1 d us _ 1 e _ hd hus (hq0.mono (by omega)) hs (Nat.le_refl 1) (links_stop hq0 (by omega))
  exact p.reads_ternary.2 ⟨e, _, hcond, .inr ⟨_, t, _, _, f, next_cons.2 ⟨hq, rfl⟩,
    h2 d vs _ hd hvs (ends_of_kind hc rfl), next_cons.2 ⟨hc, rfl⟩,
    h3 d ws rest hd hws he, rfl⟩⟩

theorem operand (h : p.Readable n ks (.unary e)) : p.Readable n ks (.binary 7 0 e) := by
  intro d ts rest least v r hd hts he _ _ hr
  exact p.reads_binary.2 ⟨e, rest, h d ts rest hd hts he, hr⟩

theorem tighter {k : Nat} (h : p.Readable n ks (.binary (k + 1) s e)) :
    p.Readable n ks (.binary k s e) := by
  intro d ts rest least v r hd hts he hs hk hr
  exact h d ts rest least v r hd hts (he.mono (by omega)) hs (by omega) hr

theorem link {k s' : Nat} (op : BinaryOp) (hk : op.precedence = k)
    (h1 : p.Readable n ks (.binary k s e)) (h2 : p.Readable n ls (.binary (k + 1) s' f))
    (hs' : s' ≤ p.maxChain) :
    p.Readable n (ks ++ .operator op :: ls) (.binary k (s + 1) (.binary e op f)) := by
  intro d ts rest least v r hd hts he hs hl hr
  obtain ⟨us, o, vs, rfl, hus, ho, hvs⟩ := map_kind_split hts
  rw [List.append_assoc, List.cons_append]
  have ho0 : Ends (k + 1) (o :: (vs ++ rest)) := by
    rw [ends_cons, ho]
    rintro g ⟨⟩
    omega
  have hp6 := op.precedence_le
  have hright : Reads (p.binary d (op.precedence + 1) (vs ++ rest)) f rest := by
    rw [hk]
    exact h2 d vs rest (k + 1) f rest hd hvs (he.mono (by omega)) hs' (Nat.le_refl _)
      (links_stop he (by omega))
  -- the left operand leads to the loop, which reads the operator as one more link
  exact h1 d us _ least v r hd hus ho0 (by omega) hl (p.reads_links.2
    (.inr ⟨op, _, f, rest, next_cons.2 ⟨ho, rfl⟩, by omega, by omega, hright, hr⟩))

theorem unary (op : UnaryOp) (h : p.Readable n ks (.unary e)) :
    p.Readable (n + 1) (op.kind :: ks) (.unary (.unary op e)) := by
  intro d ts rest hd hts he
  obtain ⟨t, us, rfl, ht, hus⟩ := List.map_eq_cons_iff.1 hts
  exact p.reads_unary.2 (.inr ⟨op, us ++ rest, e, next_cons.2 ⟨ht, rfl⟩, by omega,
    h (d + 1) us rest (by omega) hus he, rfl⟩)

theorem chain (h : p.Readable n ks (.chain s e)) (hs : s ≤ p.maxChain) :
    p.Readable n ks (.unary e) := by
  intro d ts rest hd hts he
  exact reads_unary_of_chain (h d ts rest e rest hd hts hs (trailers_stop he))

theorem primary (h : p.Readable n ks (.primary e)) : p.Readable n ks (.chain 0 e) := by
  intro d ts rest v r hd hts _ hr
  exact p.reads_chain.2 ⟨e, rest, h d ts rest hd hts, hr⟩

theorem member (name : String) (h : p.Readable n ks (.chain s e)) :
    p.Readable n (ks ++ [.dot, .identifier name]) (.chain (s + 1) (.member e name)) := by
  intro d ts rest v r hd hts hs hr
  obtain ⟨us, t1, vs, rfl, hus, h1, hvs⟩ := map_kind_split hts
  obtain ⟨t2, ws, rfl, h2, hws⟩ := List.map_eq_cons_iff.1 hvs
  obtain rfl := List.map_eq_nil_iff.1 hws
  rw [List.append_assoc]
  exact h d us _ v r hd hus (by omega) (p.reads_trailers.2 (.inr ⟨by omega, .inl
    ⟨t2 :: rest, name, rest, next_cons.2 ⟨h1, rfl⟩, next_cons.2 ⟨h2, rfl⟩, hr⟩⟩))

theorem index (h1 : p.Readable n ks (.chain s e)) (h2 : p.Readable n ls (.expression f)) :
    p.Readable n (ks ++ .leftBracket :: (ls ++ [.rightBracket])) (.chain (s + 1) (.index e f)) := by
  intro d ts rest v r hd hts hs hr
  obtain ⟨us, t1, vs, rfl, hus, ht1, hvs⟩ := map_kind_split hts
  obtain ⟨ws, t2, xs, rfl, hws, ht2, hxs⟩ := map_kind_split hvs
  obtain rfl := List.map_eq_nil_iff.1 hxs
  rw [List.append_assoc, List.cons_append, List.append_assoc, List.cons_append, List.nil_append]
  have hkey := h2 d ws (t2 :: rest) hd hws (ends_of_kind ht2 rfl)
  exact h1 d us _ v r hd hus (by omega) (p.reads_trailers.2 (.inr ⟨by omega, .inr (.inl
    ⟨_, f, t2 :: rest, rest, next_cons.2 ⟨ht1, rfl⟩, hkey, next_cons.2 ⟨ht2, rfl⟩, hr⟩)⟩))

theorem call {args : List Expr} (h1 : p.Readable n ks (.chain s e))
    (h2 : p.Readable n ls (.items args)) :
    p.Readable n (ks ++ .leftParen :: (ls ++ [.rightParen])) (.chain (s + 1) (.call e args)) := by
  intro d ts rest v r hd hts hs hr
  obtain ⟨us, t1, vs, rfl, hus, ht1, hvs⟩ := map_kind_split hts
  obtain ⟨ws, t2, xs, rfl, hws, ht2, hxs⟩ := map_kind_split hvs
  obtain rfl := List.map_eq_nil_iff.1 hxs
  rw [List.append_assoc, List.cons_append, List.append_assoc, List.cons_append, List.nil_append]
  have hargs := h2 d ws t2 rest "',' or ')'" hd hws (.inl ht2)
  rw [ht2] at hargs
  exact h1 d us _ v r hd hus (by omega) (p.reads_trailers.2 (.inr ⟨by omega, .inr (.inr
    ⟨_, args, rest, next_cons.2 ⟨ht1, rfl⟩, hargs, hr⟩)⟩))

theorem atom {k : TokenKind} (h : Atom k e) : p.Readable n [k] (.primary e) := by
  intro d ts rest hd hts
  obtain ⟨t, us, rfl, ht, hus⟩ := List.map_eq_cons_iff.1 hts
  obtain rfl := List.map_eq_nil_iff.1 hus
  exact p.reads_primary.2 (.inl ⟨k, next_cons.2 ⟨ht, rfl⟩, h⟩)

theorem group (h : p.Readable n ks (.expression e)) :
    p.Readable n (.leftParen :: (ks ++ [.rightParen])) (.primary e) := by
  intro d ts rest hd hts
  obtain ⟨t1, us, rfl, ht1, hus⟩ := List.map_eq_cons_iff.1 hts
  obtain ⟨vs, t2, ws, rfl, hvs, ht2, hws⟩ := map_kind_split hus
  obtain rfl := List.map_eq_nil_iff.1 hws
  rw [List.cons_append, List.append_assoc, List.cons_append, List.nil_append]
  have he := h d vs (t2 :: rest) hd hvs (ends_of_kind ht2 rfl)
  exact p.reads_primary.2 (.inr (.inl ⟨_, e, t2 :: rest, next_cons.2 ⟨ht1, rfl⟩, he,
    next_cons.2 ⟨ht2, rfl⟩, rfl⟩))

theorem array {es : List Expr} (h : p.Readable n ks (.items es)) :
    p.Readable n (.new :: .leftBracket :: .rightBracket :: .leftBrace :: (ks ++ [.rightBrace]))
      (.primary (.array es)) := by
  intro d ts rest hd hts
  obtain ⟨t1, _, rfl, ht1, hts⟩ := List.map_eq_cons_iff.1 hts
  obtain ⟨t2, _, rfl, ht2, hts⟩ := List.map_eq_cons_iff.1 hts
  obtain ⟨t3, _, rfl, ht3, hts⟩ := List.map_eq_cons_iff.1 hts
  obtain ⟨t4, _, rfl, ht4, hts⟩ := List.map_eq_cons_iff.1 hts
  obtain ⟨us, t5, vs, rfl, hus, ht5, hvs⟩ := map_kind_split hts
  obtain rfl := List.map_eq_nil_iff.1 hvs
  have hes := h d us t5 rest "',' or '\x7d'" hd hus (.inr ht5)
  rw [ht5] at hes
  have hl : t1 :: t2 :: t3 :: t4 :: (us ++ [t5]) ++ rest =
      t1 :: t2 :: t3 :: t4 :: (us ++ t5 :: rest) := by simp
  rw [hl]
  exact p.reads_primary.2 (.inr (.inr ⟨_, next_cons.2 ⟨ht1, rfl⟩, p.reads_collection.2 (.inl
    ⟨_, _, _, es, next_cons.2 ⟨ht2, rfl⟩, next_cons.2 ⟨ht3, rfl⟩, next_cons.2 ⟨ht4, rfl⟩, hes,
      rfl⟩)⟩))

theorem dictionary {ps : List (Expr × Expr)} (h : p.Readable n ks (.entries ps)) :
    p.Readable n (.new :: .dictionary :: .leftBrace :: (ks ++ [.rightBrace]))
      (.primary (.dictionary ps)) := by
  intro d ts rest hd hts
  obtain ⟨t1, _, rfl, ht1, hts⟩ := List.map_eq_cons_iff.1 hts
  obtain ⟨t2, _, rfl, ht2, hts⟩ := List.map_eq_cons_iff.1 hts
  obtain ⟨t3, _, rfl, ht3, hts⟩ := List.map_eq_cons_iff.1 hts
  obtain ⟨us, t4, vs, rfl, hus, ht4, hvs⟩ := map_kind_split hts
  obtain rfl := List.map_eq_nil_iff.1 hvs
  have hps := h d us t4 rest hd hus ht4
  have hl : t1 :: t2 :: t3 :: (us ++ [t4]) ++ rest = t1 :: t2 :: t3 :: (us ++ t4 :: rest) := by
    simp
  rw [hl]
  exact p.reads_primary.2 (.inr (.inr ⟨_, next_cons.2 ⟨ht1, rfl⟩, p.reads_collection.2 (.inr
    ⟨_, _, ps, next_cons.2 ⟨ht2, rfl⟩, next_cons.2 ⟨ht3, rfl⟩, hps, rfl⟩)⟩))

theorem noItems : p.Readable n [] (.items []) := by
  intro d ts t rest expected hd hts ht
  obtain rfl := List.map_eq_nil_iff.1 hts
  exact p.reads_items.2 (.inl ⟨rfl, next_cons.2 ⟨rfl, rfl⟩⟩)

theorem lastItem (h : p.Readable n ks (.expression e))
    (ho : ∃ k ls, ks = k :: ls ∧ k.opens = true) : p.Readable n ks (.items [e]) := by
  rintro d ts t rest expected hd rfl ht
  have hc : t.kind.opens = false ∧ t.kind.hold? = none ∧ t.kind ≠ .comma := by
    rcases ht with ht | ht <;> simp [ht, TokenKind.opens, TokenKind.hold?]
  have he := h d ts (t :: rest) hd rfl (ends_of_kind rfl hc.2.1)
  refine p.reads_items.2 (.inr ⟨not_next_of_opens ho hc.1 _, p.reads_itemsFrom.2
    ⟨e, t :: rest, he, .inl ⟨fun r hn => ?_, next_cons.2 ⟨rfl, rfl⟩, rfl⟩⟩⟩)
  exact hc.2.2 (next_cons.1 hn).1

theorem moreItems {es : List Expr} (h1 : p.Readable n ks (.expression e))
    (ho : ∃ k ls, ks = k :: ls ∧ k.opens = true) (h2 : p.Readable n ls (.items es))
    (hne : es ≠ []) : p.Readable n (ks ++ .comma :: ls) (.items (e :: es)) := by
  intro d ts t rest expected hd hts ht
  obtain ⟨us, c, vs, rfl, rfl, hc, rfl⟩ := map_kind_split hts
  rw [List.append_assoc, List.cons_append]
  have he := h1 d us (c :: (vs ++ t :: rest)) hd rfl (ends_of_kind hc rfl)
  rcases p.reads_items.1 (h2 d vs t rest expected hd rfl ht) with ⟨hes, -⟩ | ⟨-, hes⟩
  · exact absurd hes hne
  · have htc : t.kind.opens = false := by
      rcases ht with ht | ht <;> rw [ht] <;> rfl
    exact p.reads_items.2 (.inr ⟨not_next_of_opens ho htc _, p.reads_itemsFrom.2
      ⟨e, _, he, .inr ⟨_, es, next_cons.2 ⟨hc, rfl⟩, hes, rfl⟩⟩⟩)

theorem noEntries : p.Readable n [] (.entries []) := by
  intro d ts t rest hd hts ht
  obtain rfl := List.map_eq_nil_iff.1 hts
  exact p.reads_pairs.2 (.inl ⟨rfl, next_cons.2 ⟨ht, rfl⟩⟩)

theorem lastEntry (h1 : p.Readable n ks (.expression e)) (h2 : p.Readable n ls (.expression f)) :
    p.Readable n (.leftBrace :: (ks ++ .comma :: (ls ++ [.rightBrace]))) (.entries [(e, f)]) := by
  intro d ts t rest hd hts ht
  obtain ⟨t1, us, rfl, ht1, hus⟩ := List.map_eq_cons_iff.1 hts
  obtain ⟨us, t2, vs, rfl, rfl, ht2, hvs⟩ := map_kind_split hus
  obtain ⟨vs, t3, ws, rfl, rfl, ht3, hws⟩ := map_kind_split hvs
  obtain rfl := List.map_eq_nil_iff.1 hws
  have hl : t1 :: (us ++ t2 :: (vs ++ [t3])) ++ t :: rest =
      t1 :: (us ++ t2 :: (vs ++ t3 :: t :: rest)) := by simp
  rw [hl]
  have hk := h1 d us (t2 :: (vs ++ t3 :: t :: rest)) hd rfl (ends_of_kind ht2 rfl)
  have hv := h2 d vs (t3 :: t :: rest) hd rfl (ends_of_kind ht3 rfl)
  refine p.reads_pairs.2 (.inr ⟨fun r hn => ?_, p.reads_pairsFrom.2 ⟨_, e, _, _, f, _, _,
    next_cons.2 ⟨ht1, rfl⟩, hk, next_cons.2 ⟨ht2, rfl⟩, hv, next_cons.2 ⟨ht3, rfl⟩,
    .inl ⟨fun r hn => ?_, next_cons.2 ⟨ht, rfl⟩, rfl⟩⟩⟩)
  · cases ht1.symm.trans (next_cons.1 hn).1
  · cases ht.symm.trans (next_cons.1 hn).1

theorem moreEntries {ps : List (Expr × Expr)} (h1 : p.Readable n ks (.expression e))
    (h2 : p.Readable n ls (.expression f)) (h3 : p.Readable n ms (.entries ps)) (hne : ps ≠ []) :
    p.Readable n (.leftBrace :: (ks ++ .comma :: (ls ++ .rightBrace :: .comma :: ms)))
      (.entries ((e, f) :: ps)) := by
  intro d ts t rest hd hts ht
  obtain ⟨t1, us, rfl, ht1, hus⟩ := List.map_eq_cons_iff.1 hts
  obtain ⟨us, t2, vs, rfl, rfl, ht2, hvs⟩ := map_kind_split hus
  obtain ⟨vs, t3, ws, rfl, rfl, ht3, hws⟩ := map_kind_split hvs
  obtain ⟨t4, ws, rfl, ht4, rfl⟩ := List.map_eq_cons_iff.1 hws
  have hl : t1 :: (us ++ t2 :: (vs ++ t3 :: t4 :: ws)) ++ t :: rest =
      t1 :: (us ++ t2 :: (vs ++ t3 :: t4 :: (ws ++ t :: rest))) := by simp
  rw [hl]
  have hk := h1 d us (t2 :: (vs ++ t3 :: t4 :: (ws ++ t :: rest))) hd rfl (ends_of_kind ht2 rfl)
  have hv := h2 d vs (t3 :: t4 :: (ws ++ t :: rest)) hd rfl (ends_of_kind ht3 rfl)
  rcases p.reads_pairs.1 (h3 d ws t rest hd rfl ht) with ⟨hps, -⟩ | ⟨-, hps⟩
  · exact absurd hps hne
  · refine p.reads_pairs.2 (.inr ⟨fun r hn => ?_, p.reads_pairsFrom.2 ⟨_, e, _, _, f, _, _,
      next_cons.2 ⟨ht1, rfl⟩, hk, next_cons.2 ⟨ht2, rfl⟩, hv, next_cons.2 ⟨ht3, rfl⟩,
      .inr ⟨_, ps, next_cons.2 ⟨ht4, rfl⟩, hps, rfl⟩⟩⟩)
    cases ht1.symm.trans (next_cons.1 hn).1

end Readable

end Parser

theorem Derives.readable {p : Parser} {n : Nat} {ks : List TokenKind} {ph : Phrase}
    (h : Derives p.maxChain n ks ph) : p.Readable n ks ph := by
  induction h with
  | expression _ ih => exact ih.expression
  | plain _ hs ih => exact ih.plain hs
  | conditional _ hs _ _ ih1 ih2 ih3 => exact ih1.conditional hs ih2 ih3
  | operand _ ih => exact ih.operand
  | tighter _ ih => exact ih.tighter
  | link op hk _ _ hs ih1 ih2 => exact ih1.link op hk ih2 hs
  | unary op _ ih => exact ih.unary op
  | chain _ hs ih => exact ih.chain hs
  | primary _ ih => exact ih.primary
  | member name _ ih => exact ih.member name
  | index _ _ ih1 ih2 => exact ih1.index ih2
  | call _ _ ih1 ih2 => exact ih1.call ih2
  | atom ha => exact .atom ha
  | group _ ih => exact ih.group
  | array _ ih => exact ih.array
  | dictionary _ ih => exact ih.dictionary
  | noItems => exact .noItems
  | lastItem h ih => exact ih.lastItem (h.opens nofun nofun)
  | moreItems h _ hne ih1 ih2 => exact ih1.moreItems (h.opens nofun nofun) ih2 hne
  | noEntries => exact .noEntries
  | lastEntry _ _ ih1 ih2 => exact ih1.lastEntry ih2
  | moreEntries _ _ _ hne ih1 ih2 ih3 => exact ih1.moreEntries ih2 ih3 hne

end ExprLang
