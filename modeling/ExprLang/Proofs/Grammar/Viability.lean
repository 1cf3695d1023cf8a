import ExprLang.Proofs.Grammar.Soundness
import ExprLang.Proofs.Grammar.Tracing

/-!
# Viable tokens

* `Viable c n f ks`            the tokens `ks` can be gone on with to a phrase `f v`;
* `ViableUpTo c n f k ks`      or to such a phrase and the token `k` behind it;
* `Parser.Decided us rest o`   the tokens `us` decide the outcome `o` of a list, in front of `rest`.

The tokens in front of an unexpected one are viable, for every reader (`Parser.toEnd_traced`).  Every
list is decided somewhere (`Parser.exists_decided`), and if an unexpected token decides it, greater
limits do not help (`Parser.Decided.whole_ne_ok`).
-/

namespace ExprLang

def Viable (c n : Nat) {α : Type} (f : α → Phrase) (ks : List TokenKind) : Prop :=
  ∃ ls v, Derives c n (ks ++ ls) (f v)

def ViableUpTo (c n : Nat) {α : Type} (f : α → Phrase) (k : TokenKind) (ks : List TokenKind) :
    Prop :=
  ∃ ls ms v, ks ++ ls = ms ++ [k] ∧ Derives c n ms (f v)

/-- a run of operators of at least a precedence -/
def Phrase.run (c least : Nat) (r : Fin (c + 1) × Expr) : Phrase := .binary least r.1 r.2

namespace Derives

variable {c n : Nat} {ks : List TokenKind}

/-- something to go on with -/
theorem filler (h : 0 < n) : Derives c n [.null] (.expression (.constant .null)) := by
  obtain ⟨m, rfl⟩ : ∃ m, n = m + 1 := ⟨n - 1, by omega⟩
  have hnull : Derives c m [.null] (.binary 7 0 (.constant .null)) :=
    .operand (.chain (.primary (.atom .null)) (Nat.zero_le c))
  exact .expression (.plain (hnull.lower (by omega)) (Nat.zero_le c))

theorem pos {e : Expr} (h : Derives c n ks (.expression e)) : 0 < n := by
  cases h
  exact Nat.succ_pos _

end Derives

theorem Consumed.derives {c n : Nat} {us rest : List Token} {ph : Phrase}
    (h : Consumed c n (us ++ rest) rest ph) : Derives c n (us.map Token.kind) ph := by
  obtain ⟨used, hu, hd⟩ := h
  rwa [List.append_cancel_right hu]

namespace Parser

def ExpressionTraced (p : Parser) (ts : List Token) : Prop :=
  ∀ d n, d + n = p.maxNesting →
    Traced (Viable p.maxChain n .expression) (fun q ts => bare (q.expression d ts)) p ts

def BinaryTraced (p : Parser) (ts : List Token) : Prop :=
  ∀ d n least, d + n = p.maxNesting → 1 ≤ least → least ≤ 7 →
    Traced (Viable p.maxChain n (Phrase.run p.maxChain least))
      (fun q ts => bare (q.binary d least ts)) p ts

section
variable {p : Parser} {d n : Nat} {ts : List Token} {α : Type} {V : List TokenKind → Prop}

/-- an inner expression, and what comes behind it -/
theorem ExpressionTraced.bind
    {G : Parser → Expr × List Token → Except ParseError (α × List Token)}
    (hE : p.ExpressionTraced ts) (hd : d + n = p.maxNesting)
    (hV : ∀ ks, Viable p.maxChain n .expression ks → V ks)
    (hG : ∀ us e rest, ts = us ++ rest → rest.length < ts.length →
      Derives p.maxChain n (us.map Token.kind) (.expression e) →
      Traced (fun ks => V (us.map Token.kind ++ ks)) (fun q r => G q (e, r)) p rest) :
    Traced V (fun q ts => bare (q.expression d ts) >>= G q) p ts := by
  refine .bind ((hE d n hd).mono hV) fun us e rest hts he => ?_
  have hr := bare_eq_ok.1 he
  have hc := expression_sound p ts d n e rest hd hr
  refine hG us e rest hts hr.lt ?_
  rw [hts] at hc
  exact hc.derives

end

section
variable {p : Parser} {N d n : Nat} {ts : List Token}
  (hE : ∀ us, us.length < N → p.ExpressionTraced us) (hd : d + n = p.maxNesting)
include hE hd

/-! ## lists -/

/-- a list that is not empty -/
theorem itemsFrom_traced {close : TokenKind} {expected : String} (hN : ts.length < N) :
    Traced (ViableUpTo p.maxChain n (fun es : Expr × List Expr => .items (es.1 :: es.2)) close)
      (fun q ts => bare (q.itemsFrom d close expected ts)) p ts := by
  induction hl : ts.length using Nat.strongRecOn generalizing ts with
  | ind l ih =>
    refine .look (fun q us _ => q.bare_itemsFrom) ?_
    refine (hE ts hN).bind hd ?_ fun us e rest hts hlt hus => ?_
    · rintro ks ⟨ls, e, h⟩
      exact ⟨ls ++ [close], ks ++ ls, (e, []), by simp, .lastItem h⟩
    dsimp only
    refine .skip (fun rest' hn => ?_) fun _ => .expect ?_ fun _ _ => .ok [e]
    · have hlt' := hn.lt
      refine .bind ((ih rest'.length (by omega) (by omega) rfl).mono ?_)
        fun _ es _ _ _ => .ok (e :: es)
      rintro ks ⟨ls, ms, es, heq, h⟩
      refine ⟨ls, us.map Token.kind ++ .comma :: ms, (e, es.1 :: es.2), by simp [heq], ?_⟩
      exact .moreItems hus h (List.cons_ne_nil _ _)
    · exact ⟨[close], us.map Token.kind, (e, []), by simp, .lastItem hus⟩

theorem items_traced {close : TokenKind} {expected : String} (hN : ts.length < N) :
    Traced (ViableUpTo p.maxChain n .items close)
      (fun q ts => bare (q.items d close expected ts)) p ts := by
  refine .look (fun q us _ => q.bare_items) (.skip (fun _ _ => .ok []) fun _ => ?_)
  refine (itemsFrom_traced hE hd hN).mono ?_
  rintro ks ⟨ls, ms, es, heq, h⟩
  exact ⟨ls, ms, _, heq, h⟩

omit hE in
/-- the tokens of a list, and the one that closes it -/
theorem items_split {close : TokenKind} {expected : String} {us rest : List Token} {es : List Expr}
    (h : Reads (p.items d close expected (us ++ rest)) es rest) :
    ∃ used t, us = used ++ [t] ∧ t.kind = close ∧
      Derives p.maxChain n (used.map Token.kind) (.items es) := by
  obtain ⟨used, r, hu, hn, hes⟩ := items_sound (N := (us ++ rest).length + 1)
    (fun us _ => expression_sound p us) hd (Nat.lt_succ_self _) h
  obtain ⟨t, rfl, ht⟩ := hn
  rw [List.append_cons] at hu
  exact ⟨used, t, List.append_cancel_right hu, ht, hes⟩

/-- a list of entries that is not empty; where nesting leaves no room for one, it is viable only if
it can be empty -/
theorem pairsFrom_traced {V : List TokenKind → Prop} (hnil : V [])
    (hV : ∀ ks, ViableUpTo p.maxChain n
      (fun ps : (Expr × Expr) × List (Expr × Expr) => .entries (ps.1 :: ps.2)) .rightBrace ks → V ks)
    (hN : ts.length < N) : Traced V (fun q ts => bare (q.pairsFrom d ts)) p ts := by
  induction hl : ts.length using Nat.strongRecOn generalizing ts V with
  | ind l ih =>
    have last {us vs ks ls : List TokenKind} {k v : Expr}
        (hk : Derives p.maxChain n ks (.expression k))
        (hv : Derives p.maxChain n ls (.expression v))
        (h : us ++ vs = .leftBrace :: (ks ++ .comma :: (ls ++ [.rightBrace, .rightBrace]))) :
        V us :=
      hV _ ⟨vs, .leftBrace :: (ks ++ .comma :: (ls ++ [.rightBrace])), ((k, v), []), by simp [h],
        .lastEntry hk hv⟩
    refine .look (fun q us _ => q.bare_pairsFrom) (.expect hnil fun r1 h1 => ?_)
    have hlt1 := h1.lt
    dsimp only
    refine (hE r1 (by omega)).bind hd ?_ fun us k r2 _ hlt2 hus => ?_
    · rintro ks ⟨ls, e, h⟩
      exact last h (.filler h.pos) (show .leftBrace :: ks ++
        (ls ++ [.comma, .null, .rightBrace, .rightBrace]) = _ by simp)
    dsimp only
    refine .expect ?_ fun r3 h3 => ?_
    · exact last hus (.filler hus.pos) (show .leftBrace :: (us.map Token.kind ++ []) ++
        [.comma, .null, .rightBrace, .rightBrace] = _ by simp)
    have hlt3 := h3.lt
    dsimp only
    refine (hE r3 (by omega)).bind hd ?_ fun vs v r4 _ hlt4 hvs => ?_
    · rintro ks ⟨ls, e, h⟩
      exact last hus h (show .leftBrace :: (us.map Token.kind ++ .comma :: ks) ++
        (ls ++ [.rightBrace, .rightBrace]) = _ by simp)
    dsimp only
    refine .expect ?_ fun r5 h5 => ?_
    · exact last hus hvs (show .leftBrace :: (us.map Token.kind ++ .comma ::
        (vs.map Token.kind ++ [])) ++ [.rightBrace, .rightBrace] = _ by simp)
    have hlt5 := h5.lt
    have hfill := Derives.filler (c := p.maxChain) hus.pos
    dsimp only
    refine .skip (fun r6 h6 => ?_) fun _ => .expect ?_ fun _ _ => .ok [(k, v)]
    · have hlt6 := h6.lt
      refine .bind (ih r6.length (by omega) ?_ ?_ (by omega) rfl)
        fun _ ps _ _ _ => .ok ((k, v) :: ps)
      · refine hV _ ⟨[.leftBrace, .null, .comma, .null, .rightBrace, .rightBrace], _,
          ((k, v), [(_, _)]), ?_, .moreEntries hus hvs (.lastEntry hfill hfill) (by simp)⟩
        simp
      · rintro ks ⟨ls, ms, ps, heq, h⟩
        refine hV _ ⟨ls, _, ((k, v), _ :: _), ?_, .moreEntries hus hvs h (List.cons_ne_nil _ _)⟩
        simp [heq]
    · exact last hus hvs (show .leftBrace :: (us.map Token.kind ++ .comma ::
        (vs.map Token.kind ++ [.rightBrace])) ++ [.rightBrace] = _ by simp)

theorem pairs_traced (hN : ts.length < N) :
    Traced (ViableUpTo p.maxChain n .entries .rightBrace) (fun q ts => bare (q.pairs d ts)) p ts := by
  refine .look (fun q us _ => q.bare_pairs) (.skip (fun _ _ => .ok []) fun _ => ?_)
  refine pairsFrom_traced hE hd ⟨[.rightBrace], [], [], rfl, .noEntries⟩ ?_ hN
  rintro ks ⟨ls, ms, ps, heq, h⟩
  exact ⟨ls, ms, _, heq, h⟩

/-! ## primaries and their trailers -/

theorem collection_traced (hN : ts.length ≤ N) :
    Traced (fun ks => Viable p.maxChain n .primary (.new :: ks))
      (fun q ts => bare (q.collection d ts)) p ts := by
  by_cases hb : ∃ r, Next .leftBracket ts r
  · obtain ⟨r, hb⟩ := hb
    have hlt := hb.lt
    refine .look (fun q us hu => (hu.next hb).elim fun _ h => q.bare_collection_bracket h) ?_
    refine .tail (G := fun q ts => bare (q.expect .rightBracket _ ts) >>= _) hb ?_
    refine .expect ?_ fun r1 h1 => ?_
    · exact ⟨[.rightBracket, .leftBrace, .rightBrace], _, .array .noItems⟩
    have hlt1 := h1.lt
    dsimp only
    refine .expect ?_ fun r2 h2 => ?_
    · exact ⟨[.leftBrace, .rightBrace], _, .array .noItems⟩
    have hlt2 := h2.lt
    dsimp only
    refine .bind ((items_traced hE hd (by omega)).mono ?_)
      fun _ es _ _ _ => .ok (Expr.array es)
    rintro ks ⟨ls, ms, es, heq, h⟩
    refine ⟨ls, .array es, ?_⟩
    rw [List.cons_append, List.cons_append, List.cons_append, List.cons_append, heq]
    exact .array h
  by_cases hk : ∃ r, Next .dictionary ts r
  · obtain ⟨r, hk⟩ := hk
    have hlt := hk.lt
    refine .look (fun q us hu => (hu.next hk).elim fun _ h => q.bare_collection_dictionary h) ?_
    refine .tail (G := fun q ts => bare (q.expect .leftBrace _ ts) >>= _) hk ?_
    refine .expect ?_ fun r1 h1 => ?_
    · exact ⟨[.leftBrace, .rightBrace], _, .dictionary .noEntries⟩
    have hlt1 := h1.lt
    dsimp only
    refine .bind ((pairs_traced hE hd (by omega)).mono ?_)
      fun _ ps _ _ _ => .ok (Expr.dictionary ps)
    rintro ks ⟨ls, ms, ps, heq, h⟩
    refine ⟨ls, .dictionary ps, ?_⟩
    rw [List.cons_append, List.cons_append, List.cons_append, heq]
    exact .dictionary h
  · refine .look (fun q us hu => q.bare_collection_other fun r => ?_) (.unexpected ?_ _)
    · exact ⟨hu.not_next (fun r hr => hb ⟨r, hr⟩) r, hu.not_next (fun r hr => hk ⟨r, hr⟩) r⟩
    · exact ⟨[.dictionary, .leftBrace, .rightBrace], _, .dictionary .noEntries⟩

theorem primary_traced (hN : ts.length ≤ N) :
    Traced (Viable p.maxChain n .primary) (fun q ts => bare (q.primary d ts)) p ts := by
  by_cases ha : ∃ kind r e, Next kind ts r ∧ Atom kind e
  · obtain ⟨kind, r, e, hn, ha⟩ := ha
    refine .look (fun q us hu => ?_) (.tail (G := fun _ r => .ok (e, r)) hn (.ok e))
    obtain ⟨r', t, rfl, hk⟩ := hu.next hn
    exact q.bare_primary_atom (next_cons.2 ⟨hk, rfl⟩) ha
  by_cases hp : ∃ r, Next .leftParen ts r
  · obtain ⟨r, hp⟩ := hp
    have hlt := hp.lt
    refine .look (fun q us hu => (hu.next hp).elim fun _ h => q.bare_primary_paren h) ?_
    refine .tail (G := fun q ts => bare (q.expression d ts) >>= _) hp ?_
    refine (hE r (by omega)).bind hd ?_ fun us e r' _ _ hus => ?_
    · rintro ks ⟨ls, e, h⟩
      refine ⟨ls ++ [.rightParen], e, ?_⟩
      rw [List.cons_append, ← List.append_assoc]
      exact .group h
    dsimp only
    refine .expect ?_ fun _ _ => .ok e
    exact ⟨[.rightParen], e, by simpa using Derives.group hus⟩
  by_cases hn : ∃ r, Next .new ts r
  · obtain ⟨r, hn⟩ := hn
    have hlt := hn.lt
    refine .look (fun q us hu => (hu.next hn).elim fun _ h => q.bare_primary_new h) ?_
    exact .tail (G := fun q ts => bare (q.collection d ts)) hn (collection_traced hE hd (by omega))
  · refine .look (fun q us hu => q.bare_primary_other (fun kind r e hr he => ?_) fun r => ?_)
      (.unexpected ⟨[.null], _, .atom .null⟩ _)
    · obtain ⟨r', hr'⟩ := hu.symm.next hr
      exact ha ⟨kind, r', e, hr', he⟩
    · exact ⟨hu.not_next (fun r hr => hp ⟨r, hr⟩) r, hu.not_next (fun r hr => hn ⟨r, hr⟩) r⟩

/-- `ks` are the tokens of the target, read before -/
theorem trailers_traced {ks : List TokenKind} {k : Nat} {target : Expr} (hN : ts.length ≤ N)
    (hk : k ≤ p.maxChain) (ht : Derives p.maxChain n ks (.chain k target)) :
    Traced (fun ls => Viable p.maxChain n .unary (ks ++ ls))
      (fun q ts => bare (q.trailers d k target ts)) p ts := by
  induction hl : ts.length using Nat.strongRecOn generalizing ts ks k target with
  | ind l ih =>
    by_cases h1 : ∃ r, Next .dot ts r
    · obtain ⟨r, h1⟩ := h1
      have hlt := h1.lt
      refine .look (fun q us hu => (hu.next h1).elim fun _ h => q.bare_trailers_dot h)
        (.extend fun hc => ?_)
      refine .tail (G := fun q ts => bare (q.memberName ts) >>= _) h1 ?_
      refine .memberName ?_ fun name r2 h2 => ?_
      · exact ⟨[.identifier ""], _, by simpa using (ht.member "").chain hc⟩
      have hlt2 := h2.lt
      refine (ih r2.length (by omega) (by omega) hc (ht.member name) rfl).mono fun ls h => ?_
      rwa [List.append_assoc] at h
    by_cases h2 : ∃ r, Next .leftBracket ts r
    · obtain ⟨r, h2⟩ := h2
      have hlt := h2.lt
      refine .look (fun q us hu => (hu.next h2).elim fun _ h => q.bare_trailers_bracket h)
        (.extend fun hc => ?_)
      refine .tail (G := fun q ts => bare (q.expression d ts) >>= _) h2 ?_
      refine (hE r (by omega)).bind hd ?_ fun us key r3 _ hlt3 hus => ?_
      · rintro ls ⟨ms, e, h⟩
        exact ⟨ms ++ [.rightBracket], _, by simpa using (ht.index h).chain hc⟩
      dsimp only
      refine .expect ?_ fun r4 h4 => ?_
      · exact ⟨[.rightBracket], _, by simpa using (ht.index hus).chain hc⟩
      have hlt4 := h4.lt
      refine (ih r4.length (by omega) (by omega) hc (ht.index hus) rfl).mono fun ls h => ?_
      simpa using h
    by_cases h3 : ∃ r, Next .leftParen ts r
    · obtain ⟨r, h3⟩ := h3
      have hlt := h3.lt
      refine .look (fun q us hu => (hu.next h3).elim fun _ h => q.bare_trailers_paren h)
        (.extend fun hc => ?_)
      refine .tail (G := fun q ts => bare (q.items d .rightParen _ ts) >>= _) h3 ?_
      refine .bind ((items_traced hE hd (by omega)).mono ?_) fun us args r4 hts he => ?_
      · rintro ls ⟨ms, xs, es, heq, h⟩
        refine ⟨ms, .call target es, ?_⟩
        rw [List.append_assoc, List.cons_append, heq]
        exact (ht.call h).chain hc
      have hr := bare_eq_ok.1 he
      have hlt4 := hr.lt
      rw [hts] at hr
      obtain ⟨used, t, rfl, h5, hus⟩ := items_split hd hr
      have hcall := ht.call hus
      refine (ih r4.length (by omega) (by omega) hc hcall rfl).mono fun ls h => ?_
      simpa [h5] using h
    · refine .look (fun q us hu => q.bare_trailers_other fun r => ?_) (.ok target)
      exact ⟨hu.not_next (fun r hr => h1 ⟨r, hr⟩) r, hu.not_next (fun r hr => h2 ⟨r, hr⟩) r,
        hu.not_next (fun r hr => h3 ⟨r, hr⟩) r⟩

theorem chain_traced (hN : ts.length ≤ N) :
    Traced (Viable p.maxChain n .unary) (fun q ts => bare (q.chain d ts)) p ts := by
  refine .look (fun q us _ => q.bare_chain) ?_
  refine .bind ((primary_traced hE hd hN).mono ?_) fun us f r hts he => ?_
  · rintro ks ⟨ls, e, h⟩
    exact ⟨ls, e, .chain (.primary h) (Nat.zero_le _)⟩
  have hr := bare_eq_ok.1 he
  have hc := primary_sound (fun us _ => expression_sound p us) hd (Nat.le_refl _) hr
  rw [hts] at hc
  have hlt := hr.lt
  exact trailers_traced hE hd (by omega) (Nat.zero_le _) (.primary hc.derives)

omit hd in
theorem unary_traced (hd : d + n = p.maxNesting) (hN : ts.length ≤ N) :
    Traced (Viable p.maxChain n .unary) (fun q ts => bare (q.unary d ts)) p ts := by
  induction ts generalizing d n with
  | nil =>
    refine .look (fun q us hu => q.bare_unary_other fun op => ?_) (chain_traced hE hd hN)
    exact hu.not_next fun _ => not_next_nil
  | cons t ts ih =>
    by_cases hop : ∃ op : UnaryOp, t.kind = op.kind
    · obtain ⟨op, hop⟩ := hop
      have hn : Next op.kind (t :: ts) ts := next_cons.2 ⟨hop, rfl⟩
      refine .look (fun q us hu => (hu.next hn).elim fun _ h => q.bare_unary h) ?_
      refine .tail (G := fun q ts => q.enter d ts >>= fun _ => bare (q.unary (d + 1) ts) >>= _) hn
        (.enter fun hlt => ?_)
      obtain ⟨m, rfl⟩ : ∃ m, n = m + 1 := ⟨n - 1, by omega⟩
      refine .bind ((ih (d := d + 1) (n := m) (by omega) (Nat.le_of_succ_le hN)).mono ?_)
        fun _ e _ _ _ => .ok (Expr.unary op e)
      rintro ks ⟨ls, e, h⟩
      exact ⟨ls, _, .unary op h⟩
    · refine .look (fun q us hu => q.bare_unary_other fun op => ?_) (chain_traced hE hd hN)
      exact hu.not_next fun r hr => hop ⟨op, (next_cons.1 hr).1⟩

/-! ## operators -/

omit hE in
/-- `ks` are the tokens of the left operand, as for `links_sound` -/
theorem links_traced {ks : List TokenKind} {least k s : Nat} {left : Expr}
    (hB : ∀ us, us.length < ts.length → p.BinaryTraced us) (hk : least ≤ k) (hk' : k ≤ 7)
    (hs : s ≤ p.maxChain) (hl : Derives p.maxChain n ks (.binary k s left)) (he : Ends (k + 1) ts) :
    Traced (fun ls => Viable p.maxChain n (Phrase.run p.maxChain least) (ks ++ ls))
      (fun q ts => bare (q.links d least s left ts)) p ts := by
  induction hlen : ts.length using Nat.strongRecOn generalizing ts ks k s left with
  | ind l ih =>
    by_cases hop : ∃ op r, Next (.operator op) ts r ∧ least ≤ op.precedence
    · obtain ⟨op, r, hn, hp⟩ := hop
      have hpk : op.precedence < k + 1 := ((ends_iff (by omega)).1 he).2.1 op r hn
      have hp6 := op.precedence_le
      have hlt := hn.lt
      refine .look (fun q us hu => (hu.next hn).elim fun _ h => q.bare_links h hp)
        (.extend fun hc => ?_)
      refine .tail (G := fun q ts => bare (q.binary d (op.precedence + 1) ts) >>= _) hn ?_
      have hleft := hl.lower (Nat.le_of_lt_succ hpk)
      refine .bind ((hB r hlt d n _ hd (by omega) (by omega)).mono ?_) fun us right r' hts hr => ?_
      · rintro ls ⟨ms, ⟨s', f⟩, h⟩
        have hlink := Derives.link op rfl hleft h s'.is_le
        refine ⟨ms, ⟨⟨s + 1, Nat.succ_lt_succ hc⟩, .binary left op f⟩, ?_⟩
        rw [List.append_assoc, List.cons_append]
        exact hlink.lower hp
      have hr := bare_eq_ok.1 hr
      obtain ⟨⟨s', hs', hcons⟩, he'⟩ :=
        binary_sound (fun us _ => expression_sound p us) (Nat.le_refl _) d n _ right r' hd
          (by omega) (by omega) hr
      have hlt' := hr.lt
      rw [hts] at hcons
      have hlink := Derives.link op rfl hleft hcons.derives hs'
      refine (ih r'.length (by omega) (fun vs hvs => hB vs (by omega)) hp (by omega) hc hlink he'
        rfl).mono fun ls h => ?_
      simpa using h
    · refine .look (fun q us hu => q.bare_links_other fun op r hn => ?_) (.ok left)
      obtain ⟨r', hr'⟩ := hu.symm.next hn
      exact Nat.lt_of_not_le fun hp => hop ⟨op, r', hr', hp⟩

omit hd in
theorem binary_traced (hN : ts.length ≤ N) : p.BinaryTraced ts := by
  induction hlen : ts.length using Nat.strongRecOn generalizing ts with
  | ind l ih =>
    intro d n least hd h1 h7
    refine .look (fun q us _ => q.bare_binary) ?_
    refine .bind ((unary_traced hE hd hN).mono ?_) fun us f r hts hf => ?_
    · rintro ks ⟨ls, e, h⟩
      exact ⟨ls, ⟨⟨0, Nat.succ_pos _⟩, e⟩, (Derives.operand h).lower h7⟩
    have hr := bare_eq_ok.1 hf
    obtain ⟨hc, he⟩ := unary_sound (fun us _ => expression_sound p us) hd (Nat.le_refl _) hr
    have hlt := hr.lt
    rw [hts] at hc
    exact links_traced hd (fun vs hvs => ih vs.length (by omega) (by omega) rfl) h7
      (Nat.le_refl 7) (Nat.zero_le _) (.operand hc.derives) he

theorem ternary_traced (hN : ts.length ≤ N) :
    Traced (Viable p.maxChain n .ternary) (fun q ts => bare (q.ternary d ts)) p ts := by
  refine .look (fun q us _ => q.bare_ternary) ?_
  refine .bind ((binary_traced hE hN d n 1 hd (Nat.le_refl 1) (by omega)).mono ?_)
    fun us c r hts hc => ?_
  · rintro ks ⟨ls, ⟨s, e⟩, h⟩
    exact ⟨ls, e, .plain h s.is_le⟩
  have hr := bare_eq_ok.1 hc
  obtain ⟨⟨s, hs, hcons⟩, -⟩ := binary_sound (fun us _ => expression_sound p us) (Nat.le_refl _) d n
    1 c r hd (Nat.le_refl 1) (by omega) hr
  have hlt := hr.lt
  rw [hts] at hcons
  have hcond := hcons.derives
  dsimp only
  refine .skip (fun r1 h1 => ?_) fun _ => .ok c
  have hlt1 := h1.lt
  refine (hE r1 (by omega)).bind hd ?_ fun vs t r2 _ hlt2 hvs => ?_
  · rintro ks ⟨ls, t, h⟩
    exact ⟨ls ++ [.colon, .null], _, by simpa using hcond.conditional hs h (.filler h.pos)⟩
  dsimp only
  refine .expect ?_ fun r3 h3 => ?_
  · exact ⟨[.colon, .null], _, by simpa using hcond.conditional hs hvs (.filler hvs.pos)⟩
  have hlt3 := h3.lt
  dsimp only
  refine (hE r3 (by omega)).bind hd ?_ fun _ f _ _ _ _ => .ok (Expr.conditional c t f)
  rintro ks ⟨ls, f, h⟩
  exact ⟨ls, _, by simpa using hcond.conditional hs hvs h⟩

end

theorem expression_traced (p : Parser) (ts : List Token) : p.ExpressionTraced ts := by
  induction hlen : ts.length using Nat.strongRecOn generalizing ts with
  | ind l ih =>
    intro d n hd
    refine .look (fun q us _ => q.bare_expression) (.enter fun hlt => ?_)
    obtain ⟨m, rfl⟩ : ∃ m, n = m + 1 := ⟨n - 1, by omega⟩
    refine (ternary_traced (n := m) (fun us hus => ih us.length (by omega) us rfl) (by omega)
      (Nat.le_refl _)).mono ?_
    rintro ks ⟨ls, e, h⟩
    exact ⟨ls, e, .expression h⟩

/-- an expression with nothing behind it but the end -/
def toEnd : Reader Expr := fun p ts => bare (p.expression 0 ts) >>= fun e =>
  if isEnd e.2 then .ok e else .error (p.unexpected e.2 "end of input")

theorem whole_eq (p : Parser) (ts : List Token) : p.whole ts = (p.toEnd ts).map Prod.fst := by
  rw [whole, toEnd]
  cases p.expression 0 ts with
  | error e => rfl
  | ok e =>
    show (if isEnd e.rest then _ else _) =
      (if isEnd e.rest then Except.ok (e.value, e.rest) else _).map Prod.fst
    split <;> rfl

theorem isEnd_eq_of_sameNext {ts us : List Token} (h : SameNext ts us) : isEnd us = isEnd ts := by
  cases ts <;> cases us <;> simp_all [SameNext, isEnd]

theorem toEnd_traced (p : Parser) (ts : List Token) :
    Traced (Viable p.maxChain p.maxNesting .expression) toEnd p ts := by
  refine (expression_traced p ts).bind (Nat.zero_add _) (fun _ h => h) fun us e rest _ _ hus => ?_
  dsimp only
  cases he : isEnd rest with
  | true =>
    refine .look (fun q us hu => ?_) (.ok e)
    rw [isEnd_eq_of_sameNext hu, he]
    rfl
  | false =>
    refine .look (fun q us hu => ?_) (.unexpected ⟨[], e, by simpa using hus⟩ "end of input")
    rw [isEnd_eq_of_sameNext hu, he]
    rfl

/-- the outcome of a list of tokens, found in front of `rest`; it is the outcome of all lists that
are like it up to there, and under all limits that do not lift it -/
def Decided (p : Parser) (us rest : List Token) (o : Except Fault Expr) : Prop :=
  ∀ q us' rest', p.Keeps q o → Alike us us' → SameNext rest rest' →
    q.whole (us' ++ rest') = o.mapError (q.fault rest')

theorem exists_decided (p : Parser) (ts : List Token) : ∃ us rest o, ts = us ++ rest ∧
    p.Decided us rest o ∧ ∀ expected, o = .error (.unexpected expected) →
      Viable p.maxChain p.maxNesting .expression (us.map Token.kind) := by
  obtain ⟨us, rest, o, hts, ho, hV⟩ := toEnd_traced p ts
  refine ⟨us, rest, o, hts, fun q us' rest' hq hu hr => ?_, hV⟩
  rw [whole_eq, ho q us' rest' hq hu hr]
  cases o <;> rfl

theorem Decided.self {p : Parser} {us rest : List Token} {o : Except Fault Expr}
    (h : p.Decided us rest o) : p.whole (us ++ rest) = o.mapError (p.fault rest) :=
  h p us rest (.refl p o) (.refl us) (.refl rest)

theorem whole_mono {p q : Parser} {ts : List Token} {e : Expr} (hn : p.maxNesting ≤ q.maxNesting)
    (hc : p.maxChain ≤ q.maxChain) (h : p.whole ts = .ok e) : q.whole ts = .ok e := by
  obtain ⟨us, rest, o, rfl, ho, -⟩ := p.exists_decided ts
  rw [ho.self] at h
  cases o with
  | error x => cases h
  | ok v => exact (ho q us rest ⟨hn, hc, nofun, nofun⟩ (.refl us) (.refl rest)).trans h

/-- an unexpected token makes a list impossible, whatever follows -/
theorem Decided.whole_ne_ok {p : Parser} {us rest : List Token} {expected : String}
    (h : p.Decided us rest (.error (.unexpected expected))) (p' : Parser) {rest' : List Token}
    (hr : SameNext rest rest') (e : Expr) : p'.whole (us ++ rest') ≠ .ok e := by
  intro hok
  -- limits greater than both accept the list, and find the same error in it
  let q : Parser := ⟨max p.maxNesting p'.maxNesting, max p.maxChain p'.maxChain, p'.stop⟩
  have hok : q.whole (us ++ rest') = .ok e :=
    whole_mono (Nat.le_max_right ..) (Nat.le_max_right ..) hok
  have herr := h q us rest' ⟨Nat.le_max_left .., Nat.le_max_left .., nofun, nofun⟩ (.refl us) hr
  exact absurd (herr.symm.trans hok) nofun

end Parser

end ExprLang
