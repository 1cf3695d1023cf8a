import ExprLang.Expr.Parse
import ExprLang.Proofs.Grammar

/-!
# What the readers of the parser read

* `Reads r v rest`      the result `r` of a reader is `v`, with the tokens `rest` behind it;
* `Next kind ts rest`   the next one of the tokens `ts` is of the kind, with `rest` behind it.

For every reader, `Parser.reads_expression` to `Parser.reads_pairsFrom` say what it reads in terms
of what the readers read that it calls.
-/

namespace ExprLang

def Reads {n : Nat} {α : Type} (r : Except ParseError (Parsed n α)) (v : α) (rest : List Token) :
    Prop :=
  ∃ h, r = .ok ⟨v, rest, h⟩

def Next (kind : TokenKind) (ts rest : List Token) : Prop :=
  ∃ t, ts = t :: rest ∧ t.kind = kind

/-! ## results in sequence -/

section
variable {m n : Nat} {α β : Type} {v : α} {w : β} {rest rest' : List Token}

theorem Reads.lt {r : Except ParseError (Parsed n α)} (h : Reads r v rest) : rest.length < n :=
  h.1

theorem reads_error {e : ParseError} :
    ¬ Reads (.error e : Except ParseError (Parsed n α)) v rest := by
  intro h0
  obtain ⟨_, h⟩ := h0
  cases h

theorem reads_ok {a : Parsed n α} : Reads (.ok a) v rest ↔ v = a.value ∧ rest = a.rest := by
  obtain ⟨w, r, h⟩ := a
  constructor
  · intro h0
    obtain ⟨_, h⟩ := h0
    cases h
    exact ⟨rfl, rfl⟩
  · intro h0
    obtain ⟨rfl, rfl⟩ := h0
    exact ⟨h, rfl⟩

theorem reads_pure {a : Parsed n α} :
    Reads (pure a : Except ParseError (Parsed n α)) v rest ↔ v = a.value ∧ rest = a.rest :=
  reads_ok

theorem reads_bind {x : Except ParseError (Parsed m β)}
    {f : Parsed m β → Except ParseError (Parsed n α)} :
    Reads (x >>= f) v rest ↔
      ∃ w r, ∃ h : r.length < m, x = .ok ⟨w, r, h⟩ ∧ Reads (f ⟨w, r, h⟩) v rest := by
  cases x with
  | error e =>
    constructor
    · intro h
      exact absurd h reads_error
    · intro h0
      obtain ⟨w, r, hr, h, _⟩ := h0
      cases h
  | ok a =>
    constructor
    · intro h
      exact ⟨a.value, a.rest, a.lt, rfl, h⟩
    · intro h0
      obtain ⟨w, r, hr, h, hb⟩ := h0
      cases h
      exact hb

theorem Reads.bind {x : Except ParseError (Parsed m β)}
    {f : Parsed m β → Except ParseError (Parsed n α)} (hx : Reads x w rest')
    (hf : ∀ h, Reads (f ⟨w, rest', h⟩) v rest) : Reads (x >>= f) v rest := by
  obtain ⟨h, rfl⟩ := hx
  exact hf h

/-- folds the first half of what `reads_bind` unfolds -/
theorem exists_reads {x : Except ParseError (Parsed n α)} {q : Prop} :
    (∃ h, x = .ok ⟨v, rest, h⟩ ∧ q) ↔ Reads x v rest ∧ q :=
  exists_and_right

end

theorem Atom.ne {kind : TokenKind} {e : Expr} (h : Atom kind e) :
    kind ≠ .leftParen ∧ kind ≠ .new := by
  cases h <;> simp

namespace Parser
variable (p : Parser) {d : Nat} {kind : TokenKind} {ts rest : List Token}

/-! ## single tokens -/

theorem next_cons {t : Token} : Next kind (t :: ts) rest ↔ t.kind = kind ∧ rest = ts := by
  constructor
  · intro h0
    obtain ⟨_, h, hk⟩ := h0
    cases h
    exact ⟨hk, rfl⟩
  · intro h0
    obtain ⟨hk, rfl⟩ := h0
    exact ⟨t, rfl, hk⟩

theorem not_next_nil : ¬ Next kind [] rest := by
  intro h0
  obtain ⟨_, h, _⟩ := h0
  cases h

theorem accept?_cases (kind : TokenKind) (ts : List Token) :
    (accept? kind ts = none ∧ ∀ r, ¬ Next kind ts r) ∨
      ∃ r h, accept? kind ts = some ⟨(), r, h⟩ ∧ ∀ r', Next kind ts r' ↔ r' = r := by
  cases ts with
  | nil => exact .inl ⟨rfl, fun r => not_next_nil⟩
  | cons t ts =>
    by_cases hk : t.kind = kind
    · refine .inr ⟨ts, Nat.lt_succ_self _, by rw [accept?, if_pos hk], fun r' => ?_⟩
      simp [next_cons, hk]
    · refine .inl ⟨by rw [accept?, if_neg hk], fun r => ?_⟩
      simp [next_cons, hk]

theorem reads_expect {expected : String} {u : Unit} :
    Reads (p.expect kind expected ts) u rest ↔ Next kind ts rest := by
  rw [Parser.expect]
  rcases accept?_cases kind ts with ⟨ha, hn⟩ | ⟨r, h, ha, hn⟩
  · rw [ha]
    exact ⟨fun h => absurd h reads_error, fun h => absurd h (hn rest)⟩
  · rw [ha, hn]
    simp [reads_ok]

theorem reads_memberName {name : String} :
    Reads (p.memberName ts) name rest ↔ Next (.identifier name) ts rest := by
  rw [Parser.memberName.eq_def]
  split
  · rw [reads_ok, next_cons]
    simp [eq_comm]
  · next hne =>
    refine ⟨fun h => absurd h reads_error, ?_⟩
    intro h0
    obtain ⟨⟨kind, span⟩, rfl, rfl⟩ := h0
    exact absurd rfl (hne name span rest)

theorem reads_enter {n : Nat} {α : Type} {v : α} {x : Except ParseError (Parsed n α)} :
    Reads (p.enter d ts >>= fun _ => x) v rest ↔ d < p.maxNesting ∧ Reads x v rest := by
  rw [Parser.enter]
  split
  · next h => exact ⟨fun h => absurd h reads_error, fun h' => absurd h'.1 (by omega)⟩
  · next h => exact ⟨fun h' => ⟨by omega, h'⟩, fun h => h.2⟩

theorem reads_extend {n count : Nat} {α : Type} {v : α} {x : Except ParseError (Parsed n α)} :
    Reads (p.extend count ts >>= fun _ => x) v rest ↔ count < p.maxChain ∧ Reads x v rest := by
  rw [Parser.extend]
  split
  · next h => exact ⟨fun h => absurd h reads_error, fun h' => absurd h'.1 (by omega)⟩
  · next h => exact ⟨fun h' => ⟨by omega, h'⟩, fun h => h.2⟩

/-! ## expressions and operators -/

theorem reads_expression {e : Expr} :
    Reads (p.expression d ts) e rest ↔ d < p.maxNesting ∧ Reads (p.ternary (d + 1) ts) e rest := by
  rw [Parser.expression, reads_enter]

theorem reads_ternary {e : Expr} : Reads (p.ternary d ts) e rest ↔
    ∃ c r, Reads (p.binary d 1 ts) c r ∧
      ((∀ r', ¬ Next .question r r') ∧ e = c ∧ rest = r ∨
        ∃ r1 t r2 r3 f, Next .question r r1 ∧ Reads (p.expression d r1) t r2 ∧ Next .colon r2 r3 ∧
          Reads (p.expression d r3) f rest ∧ e = .conditional c t f) := by
  rw [Parser.ternary]
  simp only [reads_bind]
  refine exists_congr fun c => exists_congr fun r => ?_
  rcases accept?_cases .question r with ⟨ha, hn⟩ | ⟨r1, h, ha, hn⟩
  · simp only [ha, reads_pure, exists_reads]
    simp [hn]
  · simp only [ha, reads_bind, reads_pure, exists_reads]
    simp [hn, reads_expect]

theorem reads_binary {least : Nat} {e : Expr} : Reads (p.binary d least ts) e rest ↔
    ∃ f r, Reads (p.unary d ts) f r ∧ Reads (p.links d least 0 f r) e rest := by
  rw [Parser.binary]
  simp only [reads_bind, reads_pure, exists_reads, Parsed.weaken]
  simp

/-- either no operator of the precedence is next, or one more link is read -/
theorem reads_links {least count : Nat} {left e : Expr} :
    Reads (p.links d least count left ts) e rest ↔
      (∀ op r, Next (.operator op) ts r → op.precedence < least) ∧ e = left ∧ rest = ts ∨
      ∃ op r right r', Next (.operator op) ts r ∧ least ≤ op.precedence ∧ count < p.maxChain ∧
        Reads (p.binary d (op.precedence + 1) r) right r' ∧
        Reads (p.links d least (count + 1) (.binary left op right) r') e rest := by
  rw [Parser.links.eq_def]
  cases ts with
  | nil => simp [reads_ok, not_next_nil]
  | cons t ts =>
    simp only [next_cons]
    split
    · next op hk =>
      split
      · next hp =>
        rw [reads_ok]
        simp [hk, Nat.not_le.2 hp, hp]
      · next hp =>
        simp only [reads_extend, reads_bind, reads_pure, exists_reads, Parsed.weaken]
        constructor
        · intro h0
          obtain ⟨hc, right, r, hr, all, r', hl, rfl, rfl⟩ := h0
          exact .inr ⟨op, ts, right, r, ⟨hk, rfl⟩, Nat.not_lt.1 hp, hc, hr, hl⟩
        · intro h0
          obtain ⟨h, _⟩ | ⟨op', _, right, r, ⟨hk', rfl⟩, _, hc, hr, hl⟩ := h0
          · exact absurd (h op ts ⟨hk, rfl⟩) hp
          · cases hk.symm.trans hk'
            exact ⟨hc, right, r, hr, e, rest, hl, rfl, rfl⟩
    · next hne =>
      have hne' : ∀ op, t.kind ≠ .operator op := hne
      rw [reads_ok]
      simp [hne']

theorem unaryOp?_eq_some {op : UnaryOp} : unaryOp? kind = some op ↔ kind = op.kind := by
  constructor
  · intro h
    unfold unaryOp? at h
    split at h <;> cases h <;> rfl
  · rintro rfl
    cases op <;> rfl

/-- either no unary operator is next, or it is read with its operand -/
theorem reads_unary {e : Expr} : Reads (p.unary d ts) e rest ↔
    (∀ op r, ¬ Next (UnaryOp.kind op) ts r) ∧ Reads (p.chain d ts) e rest ∨
      ∃ op r f, Next (UnaryOp.kind op) ts r ∧ d < p.maxNesting ∧ Reads (p.unary (d + 1) r) f rest ∧
        e = .unary op f := by
  rw [Parser.unary.eq_def]
  cases ts with
  | nil => simp [not_next_nil]
  | cons t ts =>
    simp only [next_cons]
    split
    · next hu =>
      have hn : ∀ op : UnaryOp, t.kind ≠ op.kind := by
        intro op hk
        rw [unaryOp?_eq_some.2 hk] at hu
        cases hu
      simp [hn]
    · next op hu =>
      have hk := unaryOp?_eq_some.1 hu
      simp only [reads_enter, reads_bind, reads_pure, exists_reads]
      constructor
      · intro h0
        obtain ⟨hd, f, r, hf, rfl, rfl⟩ := h0
        exact .inr ⟨op, ts, f, ⟨hk, rfl⟩, hd, hf, rfl⟩
      · intro h0
        obtain ⟨h, _⟩ | ⟨op', _, f, ⟨hk', rfl⟩, hd, hf, rfl⟩ := h0
        · exact absurd ⟨hk, rfl⟩ (h op ts)
        · rw [unaryOp?_eq_some.2 hk'] at hu
          cases hu
          exact ⟨hd, f, rest, hf, rfl, rfl⟩

/-! ## primaries and trailers -/

theorem reads_chain {e : Expr} : Reads (p.chain d ts) e rest ↔
    ∃ f r, Reads (p.primary d ts) f r ∧ Reads (p.trailers d 0 f r) e rest := by
  rw [Parser.chain]
  simp only [reads_bind, reads_pure, exists_reads, Parsed.weaken]
  simp

/-- either no trailer is next, or one more link is read -/
theorem reads_trailers {count : Nat} {target e : Expr} :
    Reads (p.trailers d count target ts) e rest ↔
      (∀ r, ¬ Next .dot ts r ∧ ¬ Next .leftBracket ts r ∧ ¬ Next .leftParen ts r) ∧
        e = target ∧ rest = ts ∨
      count < p.maxChain ∧
        ((∃ r name r', Next .dot ts r ∧ Next (.identifier name) r r' ∧
          Reads (p.trailers d (count + 1) (.member target name) r') e rest) ∨
        (∃ r key r' r'', Next .leftBracket ts r ∧ Reads (p.expression d r) key r' ∧
          Next .rightBracket r' r'' ∧
          Reads (p.trailers d (count + 1) (.index target key) r'') e rest) ∨
        (∃ r args r', Next .leftParen ts r ∧
          Reads (p.items d .rightParen "',' or ')'" r) args r' ∧
          Reads (p.trailers d (count + 1) (.call target args) r') e rest)) := by
  rw [Parser.trailers.eq_def]
  cases ts with
  | nil => simp [reads_ok, not_next_nil]
  | cons t ts =>
    simp only [next_cons]
    split
    · next hk =>
      simp only [reads_extend, reads_bind, reads_pure, exists_reads, Parsed.weaken]
      simp [hk, reads_memberName]
    · next hk =>
      simp only [reads_extend, reads_bind, reads_pure, exists_reads, Parsed.weaken]
      simp [hk, reads_expect]
    · next hk =>
      simp only [reads_extend, reads_bind, reads_pure, exists_reads, Parsed.weaken]
      simp [hk]
    · next h1 h2 h3 =>
      have h1' : t.kind ≠ .dot := h1
      have h2' : t.kind ≠ .leftBracket := h2
      have h3' : t.kind ≠ .leftParen := h3
      rw [reads_ok]
      simp [h1', h2', h3']

theorem atom?_eq_some {e : Expr} : atom? kind = some e ↔ Atom kind e := by
  constructor
  · intro h
    unfold atom? at h
    split at h <;> cases h <;> constructor
  · intro h
    cases h <;> rfl

theorem reads_primary {e : Expr} : Reads (p.primary d ts) e rest ↔
    (∃ kind, Next kind ts rest ∧ Atom kind e) ∨
      (∃ r f r', Next .leftParen ts r ∧ Reads (p.expression d r) f r' ∧
        Next .rightParen r' rest ∧ e = f) ∨
      ∃ r, Next .new ts r ∧ Reads (p.collection d r) e rest := by
  rw [Parser.primary.eq_def]
  cases ts with
  | nil => simp [reads_error, not_next_nil]
  | cons t ts =>
    have ha : (∃ kind, (t.kind = kind ∧ rest = ts) ∧ Atom kind e) ↔
        rest = ts ∧ atom? t.kind = some e := by
      rw [atom?_eq_some]
      exact ⟨fun ⟨_, ⟨rfl, h⟩, ha⟩ => ⟨h, ha⟩, fun ⟨h, ha⟩ => ⟨_, ⟨rfl, h⟩, ha⟩⟩
    simp only [next_cons, ha]
    split
    · next f hf =>
      have hn := (atom?_eq_some.1 hf).ne
      rw [reads_ok]
      simp [hn, hf, eq_comm, and_comm]
    · next hf =>
      split
      · next hk =>
        simp only [reads_bind, reads_pure, exists_reads]
        simp [hk, hk ▸ hf, reads_expect]
      · next hk =>
        simp only [reads_bind, reads_pure, exists_reads, Parsed.weaken]
        simp [hk, hk ▸ hf]
      · next h1 h2 =>
        have h1' : t.kind ≠ .leftParen := h1
        have h2' : t.kind ≠ .new := h2
        simp [reads_error, h1', h2', hf]

/-! ## collections -/

theorem reads_collection {e : Expr} : Reads (p.collection d ts) e rest ↔
    (∃ r r1 r2 es, Next .leftBracket ts r ∧ Next .rightBracket r r1 ∧ Next .leftBrace r1 r2 ∧
      Reads (p.items d .rightBrace "',' or '\x7d'" r2) es rest ∧ e = .array es) ∨
      ∃ r r1 ps, Next .dictionary ts r ∧ Next .leftBrace r r1 ∧ Reads (p.pairs d r1) ps rest ∧
        e = .dictionary ps := by
  rw [Parser.collection.eq_def]
  cases ts with
  | nil => simp [reads_error, not_next_nil]
  | cons t ts =>
    simp only [next_cons]
    split
    · next hk =>
      simp only [reads_bind, reads_pure, exists_reads]
      simp [hk, reads_expect]
    · next hk =>
      simp only [reads_bind, reads_pure, exists_reads]
      simp [hk, reads_expect]
    · next h1 h2 =>
      have h1' : t.kind ≠ .leftBracket := h1
      have h2' : t.kind ≠ .dictionary := h2
      simp [reads_error, h1', h2']

theorem reads_items {close : TokenKind} {expected : String} {es : List Expr} :
    Reads (p.items d close expected ts) es rest ↔
      es = [] ∧ Next close ts rest ∨
        (∀ r, ¬ Next close ts r) ∧ Reads (p.itemsFrom d close expected ts) es rest := by
  rw [Parser.items]
  rcases accept?_cases close ts with ⟨ha, hn⟩ | ⟨r, h, ha, hn⟩
  · simp [ha, hn]
  · simp [ha, hn, reads_ok]

theorem reads_itemsFrom {close : TokenKind} {expected : String} {es : List Expr} :
    Reads (p.itemsFrom d close expected ts) es rest ↔
      ∃ e r, Reads (p.expression d ts) e r ∧
        ((∀ r', ¬ Next .comma r r') ∧ Next close r rest ∧ es = [e] ∨
          ∃ r' fs, Next .comma r r' ∧ Reads (p.itemsFrom d close expected r') fs rest ∧
            es = e :: fs) := by
  rw [Parser.itemsFrom]
  simp only [reads_bind]
  refine exists_congr fun e => exists_congr fun r => ?_
  rcases accept?_cases .comma r with ⟨ha, hn⟩ | ⟨r', h, ha, hn⟩
  · simp only [ha, reads_bind, reads_pure, exists_reads]
    simp [hn, reads_expect]
  · simp only [ha, reads_bind, reads_pure, exists_reads]
    simp [hn]

theorem reads_pairs {ps : List (Expr × Expr)} : Reads (p.pairs d ts) ps rest ↔
    ps = [] ∧ Next .rightBrace ts rest ∨
      (∀ r, ¬ Next .rightBrace ts r) ∧ Reads (p.pairsFrom d ts) ps rest := by
  rw [Parser.pairs]
  rcases accept?_cases .rightBrace ts with ⟨ha, hn⟩ | ⟨r, h, ha, hn⟩
  · simp [ha, hn]
  · simp [ha, hn, reads_ok]

theorem reads_pairsFrom {ps : List (Expr × Expr)} : Reads (p.pairsFrom d ts) ps rest ↔
    ∃ r1 k r2 r3 v r4 r5, Next .leftBrace ts r1 ∧ Reads (p.expression d r1) k r2 ∧
      Next .comma r2 r3 ∧ Reads (p.expression d r3) v r4 ∧ Next .rightBrace r4 r5 ∧
      ((∀ r, ¬ Next .comma r5 r) ∧ Next .rightBrace r5 rest ∧ ps = [(k, v)] ∨
        ∃ r6 qs, Next .comma r5 r6 ∧ Reads (p.pairsFrom d r6) qs rest ∧ ps = (k, v) :: qs) := by
  rw [Parser.pairsFrom]
  dsimp only
  constructor
  · intro h
    simp only [reads_bind] at h
    obtain ⟨_, r1, _, h1, k, r2, _, hk, _, r3, _, h3, v, r4, _, hv, _, r5, _, h5, h⟩ := h
    refine ⟨r1, k, r2, r3, v, r4, r5, p.reads_expect.1 ⟨_, h1⟩, ⟨_, hk⟩, p.reads_expect.1 ⟨_, h3⟩,
      ⟨_, hv⟩, p.reads_expect.1 ⟨_, h5⟩, ?_⟩
    rcases accept?_cases .comma r5 with ⟨ha, hn⟩ | ⟨r6, _, ha, hn⟩
    · simp only [ha, reads_bind, reads_pure, exists_reads] at h
      simpa [hn, reads_expect] using h
    · simp only [ha, reads_bind, reads_pure, exists_reads] at h
      simpa [hn] using h
  · intro h0
    obtain ⟨r1, k, r2, r3, v, r4, r5, h1, hk, h3, hv, h5, h⟩ := h0
    refine .bind (w := ()) (p.reads_expect.2 h1) fun _ => .bind hk fun _ =>
      .bind (w := ()) (p.reads_expect.2 h3) fun _ => .bind hv fun _ =>
      .bind (w := ()) (p.reads_expect.2 h5) fun _ => ?_
    rcases accept?_cases .comma r5 with ⟨ha, hn⟩ | ⟨r6, _, ha, hn⟩
    · simp only [ha, reads_bind, reads_pure, exists_reads]
      simpa [hn, reads_expect] using h
    · simp only [ha, reads_bind, reads_pure, exists_reads]
      simpa [hn] using h

end Parser

end ExprLang
