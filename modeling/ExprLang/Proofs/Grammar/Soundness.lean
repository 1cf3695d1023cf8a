import ExprLang.Proofs.Grammar.Reading

/-!
# What the parser reads is derived

* `TokenKind.hold?`   how tightly a token goes on with the phrase in front of it;
* `Ends k ts`         the tokens `ts` do not go on with a phrase that holds `k` or looser;
* `Consumed`          the tokens in front of the rest are a phrase.

Every reader is sound on a list of tokens if expressions are read soundly from shorter ones, and
`Parser.expression_sound` closes the circle.  The run of operators keeps an invariant: the operand
read so far is derived at a level `k`, and no operator tighter than `k` is next.
-/

namespace ExprLang

def TokenKind.hold? : TokenKind → Option Nat
  | .question => some 0
  | .operator op => some op.precedence
  | .dot | .leftBracket | .leftParen => some 8
  | _ => none

def Ends (k : Nat) (ts : List Token) : Prop :=
  ∀ kind r g, Next kind ts r → kind.hold? = some g → g < k

theorem Ends.mono {k l : Nat} {ts : List Token} (h : Ends k ts) (hl : k ≤ l) : Ends l ts := by
  intro kind r g hn hg
  exact Nat.lt_of_lt_of_le (h kind r g hn hg) hl

theorem ends_iff {k : Nat} {ts : List Token} (hk : k ≤ 8) : Ends k ts ↔
    (∀ r, ¬ Next .dot ts r ∧ ¬ Next .leftBracket ts r ∧ ¬ Next .leftParen ts r) ∧
      (∀ op r, Next (.operator op) ts r → op.precedence < k) ∧
      ∀ r, Next .question ts r → 0 < k := by
  constructor
  · intro h
    have no {kind : TokenKind} (hg : kind.hold? = some 8) (r : List Token) :
        ¬ Next kind ts r := fun hn => absurd (h kind r 8 hn hg) (by omega)
    exact ⟨fun r => ⟨no rfl r, no rfl r, no rfl r⟩, fun op r hn => h _ r _ hn rfl,
      fun r hn => h _ r _ hn rfl⟩
  · rintro ⟨ht, hop, hq⟩ kind r g hn hg
    cases kind <;> cases hg
    case operator.refl op => exact hop op r hn
    case question.refl => exact hq r hn
    case dot.refl => exact absurd hn (ht r).1
    case leftBracket.refl => exact absurd hn (ht r).2.1
    case leftParen.refl => exact absurd hn (ht r).2.2

def Consumed (c n : Nat) (ts rest : List Token) (ph : Phrase) : Prop :=
  ∃ used, ts = used ++ rest ∧ Derives c n (used.map Token.kind) ph

namespace Parser

/-- what is read as an expression is one -/
def ExpressionSound (p : Parser) (ts : List Token) : Prop :=
  ∀ d n e rest, d + n = p.maxNesting → Reads (p.expression d ts) e rest →
    Consumed p.maxChain n ts rest (.expression e)

/-- what is read as a run of operators is one, and no further operator could have been read -/
def BinarySound (p : Parser) (ts : List Token) : Prop :=
  ∀ d n least e rest, d + n = p.maxNesting → 1 ≤ least → least ≤ 7 →
    Reads (p.binary d least ts) e rest →
    (∃ s, s ≤ p.maxChain ∧ Consumed p.maxChain n ts rest (.binary least s e)) ∧ Ends least rest

section
variable {p : Parser} {N d n : Nat} {ts rest : List Token}
  (hE : ∀ us, us.length < N → p.ExpressionSound us) (hd : d + n = p.maxNesting)
include hE hd

/-! ## lists -/

theorem itemsFrom_sound {close : TokenKind} {expected : String} {es : List Expr}
    (hN : ts.length < N) (hr : Reads (p.itemsFrom d close expected ts) es rest) :
    ∃ used r, ts = used ++ r ∧ Next close r rest ∧ es ≠ [] ∧
      Derives p.maxChain n (used.map Token.kind) (.items es) := by
  induction hl : ts.length using Nat.strongRecOn generalizing ts es with
  | ind l ih =>
    obtain ⟨e, r, he, h⟩ := p.reads_itemsFrom.1 hr
    obtain ⟨us, rfl, hus⟩ := hE ts hN d n e r hd he
    rcases h with ⟨-, hc, rfl⟩ | ⟨r', fs, ⟨t, rfl, ht⟩, hf, rfl⟩
    · exact ⟨us, r, rfl, hc, by simp, .lastItem hus⟩
    · simp only [List.length_append, List.length_cons] at hN hl
      obtain ⟨vs, r, rfl, hc, hne, hvs⟩ := ih r'.length (by omega) (by omega) hf rfl
      refine ⟨us ++ t :: vs, r, by simp, hc, by simp, ?_⟩
      rw [List.map_append, List.map_cons, ht]
      exact .moreItems hus hvs hne

theorem items_sound {close : TokenKind} {expected : String} {es : List Expr}
    (hN : ts.length < N) (hr : Reads (p.items d close expected ts) es rest) :
    ∃ used r, ts = used ++ r ∧ Next close r rest ∧
      Derives p.maxChain n (used.map Token.kind) (.items es) := by
  rcases p.reads_items.1 hr with ⟨rfl, hc⟩ | ⟨-, h⟩
  · exact ⟨[], ts, rfl, hc, .noItems⟩
  · obtain ⟨us, r, rfl, hc, -, hus⟩ := itemsFrom_sound hE hd hN h
    exact ⟨us, r, rfl, hc, hus⟩

theorem pairsFrom_sound {ps : List (Expr × Expr)} (hN : ts.length < N)
    (hr : Reads (p.pairsFrom d ts) ps rest) :
    ∃ used r, ts = used ++ r ∧ Next .rightBrace r rest ∧ ps ≠ [] ∧
      Derives p.maxChain n (used.map Token.kind) (.entries ps) := by
  induction hl : ts.length using Nat.strongRecOn generalizing ts ps with
  | ind l ih =>
    obtain ⟨r1, k, r2, r3, v, r4, r5, ⟨t1, rfl, h1⟩, hk, ⟨t2, rfl, h2⟩, hv, ⟨t3, rfl, h3⟩, h⟩ :=
      p.reads_pairsFrom.1 hr
    simp only [List.length_cons] at hN hl
    obtain ⟨us, rfl, hus⟩ := hE r1 (by omega) d n k _ hd hk
    simp only [List.length_append, List.length_cons] at hN hl
    obtain ⟨vs, rfl, hvs⟩ := hE r3 (by omega) d n v _ hd hv
    simp only [List.length_append, List.length_cons] at hN hl
    rcases h with ⟨-, hc, rfl⟩ | ⟨r6, qs, ⟨t4, rfl, h4⟩, hq, rfl⟩
    · refine ⟨t1 :: (us ++ t2 :: (vs ++ [t3])), r5, by simp, hc, by simp, ?_⟩
      simp only [List.map_cons, List.map_append, List.map_nil, h1, h2, h3]
      exact .lastEntry hus hvs
    · simp only [List.length_cons] at hN hl
      obtain ⟨ws, r, rfl, hc, hne, hws⟩ := ih r6.length (by omega) (by omega) hq rfl
      refine ⟨t1 :: (us ++ t2 :: (vs ++ t3 :: t4 :: ws)), r, by simp, hc, by simp, ?_⟩
      simp only [List.map_cons, List.map_append, h1, h2, h3, h4]
      exact .moreEntries hus hvs hws hne

theorem pairs_sound {ps : List (Expr × Expr)} (hN : ts.length < N)
    (hr : Reads (p.pairs d ts) ps rest) :
    ∃ used r, ts = used ++ r ∧ Next .rightBrace r rest ∧
      Derives p.maxChain n (used.map Token.kind) (.entries ps) := by
  rcases p.reads_pairs.1 hr with ⟨rfl, hc⟩ | ⟨-, h⟩
  · exact ⟨[], ts, rfl, hc, .noEntries⟩
  · obtain ⟨us, r, rfl, hc, -, hus⟩ := pairsFrom_sound hE hd hN h
    exact ⟨us, r, rfl, hc, hus⟩

/-! ## primaries and their trailers -/

theorem primary_sound {e : Expr} (hN : ts.length ≤ N) (hr : Reads (p.primary d ts) e rest) :
    Consumed p.maxChain n ts rest (.primary e) := by
  rcases p.reads_primary.1 hr with ⟨_, ⟨t, rfl, rfl⟩, ha⟩ |
    ⟨r, f, r', ⟨t1, rfl, h1⟩, hf, ⟨t2, rfl, h2⟩, rfl⟩ | ⟨r, ⟨t1, rfl, h1⟩, h⟩
  · exact ⟨[t], rfl, .atom ha⟩
  · obtain ⟨us, rfl, hus⟩ := hE r hN d n e _ hd hf
    refine ⟨t1 :: (us ++ [t2]), by simp, ?_⟩
    simp only [List.map_cons, List.map_append, List.map_nil, h1, h2]
    exact .group hus
  · simp only [List.length_cons] at hN
    rcases p.reads_collection.1 h with
      ⟨r1, r2, r3, es, ⟨t2, rfl, h2⟩, ⟨t3, rfl, h3⟩, ⟨t4, rfl, h4⟩, hes, rfl⟩ |
      ⟨r1, r2, ps, ⟨t2, rfl, h2⟩, ⟨t3, rfl, h3⟩, hps, rfl⟩
    · simp only [List.length_cons] at hN
      obtain ⟨us, r, rfl, ⟨t5, rfl, h5⟩, hus⟩ := items_sound hE hd (by omega) hes
      refine ⟨t1 :: t2 :: t3 :: t4 :: (us ++ [t5]), by simp, ?_⟩
      simp only [List.map_cons, List.map_append, List.map_nil, h1, h2, h3, h4, h5]
      exact .array hus
    · simp only [List.length_cons] at hN
      obtain ⟨us, r, rfl, ⟨t4, rfl, h4⟩, hus⟩ := pairs_sound hE hd (by omega) hps
      refine ⟨t1 :: t2 :: t3 :: (us ++ [t4]), by simp, ?_⟩
      simp only [List.map_cons, List.map_append, List.map_nil, h1, h2, h3, h4]
      exact .dictionary hus

/-- `ks` are the tokens of the target, read before -/
theorem trailers_sound {ks : List TokenKind} {k : Nat} {target e : Expr} (hN : ts.length ≤ N)
    (hk : k ≤ p.maxChain) (ht : Derives p.maxChain n ks (.chain k target))
    (hr : Reads (p.trailers d k target ts) e rest) :
    ∃ more s, ts = more ++ rest ∧ s ≤ p.maxChain ∧
      Derives p.maxChain n (ks ++ more.map Token.kind) (.chain s e) ∧ Ends 8 rest := by
  induction hl : ts.length using Nat.strongRecOn generalizing ts ks k target with
  | ind l ih =>
    rcases p.reads_trailers.1 hr with ⟨hn, rfl, rfl⟩ | ⟨hc, h⟩
    · refine ⟨[], k, rfl, hk, by simpa using ht, (ends_iff (Nat.le_refl 8)).2 ⟨hn, ?_, ?_⟩⟩
      · intro op r _
        have := op.precedence_le
        omega
      · intro r _
        omega
    · rcases h with ⟨r, name, r', ⟨t1, rfl, h1⟩, ⟨t2, rfl, h2⟩, h⟩ |
        ⟨r, key, r', r'', ⟨t1, rfl, h1⟩, hkey, ⟨t2, rfl, h2⟩, h⟩ |
        ⟨r, args, r', ⟨t1, rfl, h1⟩, hargs, h⟩
      · simp only [List.length_cons] at hN hl
        obtain ⟨more, s, rfl, hs, hm, he⟩ :=
          ih r'.length (by omega) (by omega) hc (.member name ht) h rfl
        refine ⟨t1 :: t2 :: more, s, rfl, hs, ?_, he⟩
        simpa [h1, h2] using hm
      · simp only [List.length_cons] at hN hl
        obtain ⟨us, rfl, hus⟩ := hE r (by omega) d n key _ hd hkey
        simp only [List.length_append, List.length_cons] at hN hl
        obtain ⟨more, s, rfl, hs, hm, he⟩ :=
          ih r''.length (by omega) (by omega) hc (.index ht hus) h rfl
        refine ⟨t1 :: (us ++ t2 :: more), s, by simp, hs, ?_, he⟩
        simpa [h1, h2] using hm
      · simp only [List.length_cons] at hN hl
        obtain ⟨us, r, rfl, ⟨t2, rfl, h2⟩, hus⟩ := items_sound hE hd (by omega) hargs
        simp only [List.length_append, List.length_cons] at hN hl
        obtain ⟨more, s, rfl, hs, hm, he⟩ :=
          ih r'.length (by omega) (by omega) hc (.call ht hus) h rfl
        refine ⟨t1 :: (us ++ t2 :: more), s, by simp, hs, ?_, he⟩
        simpa [h1, h2] using hm

theorem chain_sound {e : Expr} (hN : ts.length ≤ N) (hr : Reads (p.chain d ts) e rest) :
    Consumed p.maxChain n ts rest (.unary e) ∧ Ends 8 rest := by
  obtain ⟨f, r, hf, h⟩ := p.reads_chain.1 hr
  obtain ⟨us, rfl, hus⟩ := primary_sound hE hd hN hf
  simp only [List.length_append] at hN
  obtain ⟨more, s, rfl, hs, hm, he⟩ :=
    trailers_sound hE hd (by omega) (Nat.zero_le _) (.primary hus) h
  refine ⟨⟨us ++ more, by simp, ?_⟩, he⟩
  rw [List.map_append]
  exact .chain hm hs

omit hd in
theorem unary_sound {e : Expr} (hd : d + n = p.maxNesting) (hN : ts.length ≤ N)
    (hr : Reads (p.unary d ts) e rest) :
    Consumed p.maxChain n ts rest (.unary e) ∧ Ends 8 rest := by
  induction ts generalizing d n e with
  | nil =>
    rcases p.reads_unary.1 hr with ⟨-, h⟩ | ⟨op, r, f, hn, -⟩
    · exact chain_sound hE hd hN h
    · exact absurd hn not_next_nil
  | cons t ts ih =>
    rcases p.reads_unary.1 hr with ⟨-, h⟩ | ⟨op, r, f, hn, hlt, hf, rfl⟩
    · exact chain_sound hE hd hN h
    · obtain ⟨hk, rfl⟩ := next_cons.1 hn
      obtain ⟨m, rfl⟩ : ∃ m, n = m + 1 := ⟨n - 1, by omega⟩
      obtain ⟨⟨us, rfl, hus⟩, he⟩ :=
        ih (d := d + 1) (n := m) (by omega) (Nat.le_of_succ_le hN) hf
      refine ⟨⟨t :: us, rfl, ?_⟩, he⟩
      rw [List.map_cons, hk]
      exact .unary op hus

/-! ## operators -/

omit hE in
/-- `ks` are the tokens of the left operand, which is derived at a level `k`; an operator tighter
than that is not next -/
theorem links_sound {ks : List TokenKind} {least k s : Nat} {left e : Expr}
    (hB : ∀ us, us.length < ts.length → p.BinarySound us) (h1 : 1 ≤ least) (hk : least ≤ k)
    (hk' : k ≤ 7) (hs : s ≤ p.maxChain) (hl : Derives p.maxChain n ks (.binary k s left))
    (he : Ends (k + 1) ts) (hr : Reads (p.links d least s left ts) e rest) :
    ∃ more s', ts = more ++ rest ∧ s' ≤ p.maxChain ∧
      Derives p.maxChain n (ks ++ more.map Token.kind) (.binary least s' e) ∧ Ends least rest := by
  induction hlen : ts.length using Nat.strongRecOn generalizing ts ks k s left with
  | ind l ih =>
    rcases p.reads_links.1 hr with ⟨hn, rfl, rfl⟩ | ⟨op, r, right, r', hn, hp, hc, hright, h⟩
    · refine ⟨[], s, rfl, hs, by simpa using hl.lower hk, (ends_iff (by omega)).2 ⟨?_, hn, ?_⟩⟩
      · exact ((ends_iff (by omega)).1 he).1
      · exact fun _ _ => h1
    · -- the invariant: the next operator is no tighter than the operand so far, so the operand can
      -- be lowered to the level of the operator
      have hpk : op.precedence < k + 1 := ((ends_iff (by omega)).1 he).2.1 op r hn
      have hp6 := op.precedence_le
      obtain ⟨t, rfl, ht⟩ := hn
      simp only [List.length_cons] at hB hlen
      obtain ⟨⟨s', hs', us, rfl, hus⟩, he'⟩ :=
        hB r (by omega) d n _ right r' hd (by omega) (by omega) hright
      simp only [List.length_append] at hB hlen
      have hl' := Derives.link op rfl (hl.lower (Nat.le_of_lt_succ hpk)) hus hs'
      obtain ⟨more, s'', rfl, hs'', hm, hend⟩ :=
        ih r'.length (by omega) (fun vs hvs => hB vs (by omega)) hp (by omega) hc hl' he' h rfl
      refine ⟨t :: (us ++ more), s'', by simp, hs'', ?_, hend⟩
      simpa [ht] using hm

omit hd in
theorem binary_sound (hN : ts.length ≤ N) : p.BinarySound ts := by
  induction hlen : ts.length using Nat.strongRecOn generalizing ts with
  | ind l ih =>
    intro d n least e rest hd h1 h7 hr
    obtain ⟨f, r, hf, h⟩ := p.reads_binary.1 hr
    obtain ⟨⟨us, rfl, hus⟩, he⟩ := unary_sound hE hd hN hf
    simp only [List.length_append] at hN hlen
    have hlt := Reads.lt hf
    simp only [List.length_append] at hlt
    obtain ⟨more, s, rfl, hs, hm, hend⟩ :=
      links_sound hd (fun vs hvs => ih vs.length (by omega) (by omega) rfl) h1 h7
        (Nat.le_refl 7) (Nat.zero_le _) (.operand hus) he h
    refine ⟨⟨s, hs, us ++ more, by simp, ?_⟩, hend⟩
    rw [List.map_append]
    exact hm

theorem ternary_sound {e : Expr} (hN : ts.length ≤ N) (hr : Reads (p.ternary d ts) e rest) :
    Consumed p.maxChain n ts rest (.ternary e) := by
  obtain ⟨c, r, hc, h⟩ := p.reads_ternary.1 hr
  obtain ⟨⟨s, hs, us, rfl, hus⟩, -⟩ :=
    binary_sound hE hN d n 1 c r hd (Nat.le_refl 1) (by omega) hc
  rcases h with ⟨-, rfl, rfl⟩ |
    ⟨r1, t, r2, r3, f, ⟨t1, rfl, h1⟩, ht, ⟨t2, rfl, h2⟩, hf, rfl⟩
  · exact ⟨us, rfl, .plain hus hs⟩
  · simp only [List.length_append, List.length_cons] at hN
    obtain ⟨vs, rfl, hvs⟩ := hE r1 (by omega) d n t _ hd ht
    simp only [List.length_append, List.length_cons] at hN
    obtain ⟨ws, rfl, hws⟩ := hE r3 (by omega) d n f _ hd hf
    refine ⟨us ++ t1 :: (vs ++ t2 :: ws), by simp, ?_⟩
    simp only [List.map_append, List.map_cons, h1, h2]
    exact .conditional hus hs hvs hws

end

theorem expression_sound (p : Parser) (ts : List Token) : p.ExpressionSound ts := by
  -- by the number of tokens: inner expressions are read behind at least one token
  induction hlen : ts.length using Nat.strongRecOn generalizing ts with
  | ind l ih =>
    intro d n e rest hd hr
    obtain ⟨hlt, h⟩ := p.reads_expression.1 hr
    obtain ⟨m, rfl⟩ : ∃ m, n = m + 1 := ⟨n - 1, by omega⟩
    obtain ⟨us, rfl, hus⟩ := ternary_sound (n := m) (fun us hus => ih us.length (by omega) us rfl)
      (by omega) (Nat.le_refl _) h
    exact ⟨us, rfl, .expression hus⟩

end Parser

end ExprLang
