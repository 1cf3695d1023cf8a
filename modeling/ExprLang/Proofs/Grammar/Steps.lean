import ExprLang.Proofs.Grammar.Reading
import ExprLang.Proofs.Outcome

/-!
# The readers step by step

* `bare r`            the result of a reader, without the bound on the tokens behind it;
* `skip? kind ts`     the tokens behind the next one, if that is of the kind.

`Parser.bare_expression` to `Parser.bare_pairsFrom` write every reader as the steps it takes, for
each kind of next token that it tells apart; what fails is written as well, unlike in the lemmas on
what is read.
-/

namespace ExprLang

def bare {n : Nat} {α : Type} (r : Except ParseError (Parsed n α)) :
    Except ParseError (α × List Token) :=
  r.map fun a => (a.value, a.rest)

section
variable {m n : Nat} {α β : Type} {v : α} {rest : List Token}

theorem bare_eq_ok {r : Except ParseError (Parsed n α)} :
    bare r = .ok (v, rest) ↔ Reads r v rest := by
  rw [bare, map_eq_ok]
  constructor
  · intro h0
    obtain ⟨a, rfl, ha⟩ := h0
    cases ha
    exact reads_ok.2 ⟨rfl, rfl⟩
  · intro h0
    obtain ⟨h, rfl⟩ := h0
    exact ⟨_, rfl, rfl⟩

theorem bare_bind {x : Except ParseError (Parsed m β)}
    {f : Parsed m β → Except ParseError (Parsed n α)}
    {g : β × List Token → Except ParseError (α × List Token)}
    (h : ∀ a, bare (f a) = g (a.value, a.rest)) : bare (x >>= f) = bare x >>= g := by
  cases x with
  | error e => rfl
  | ok a => exact h a

theorem bare_check {x : Except ParseError Unit} {r : Except ParseError (Parsed n α)} :
    bare (x >>= fun _ => r) = x >>= fun _ => bare r := by
  cases x <;> rfl

theorem bare_weaken {x : Except ParseError (Parsed m α)} (h : m ≤ n) :
    bare (x >>= fun a => pure (a.weaken h)) = bare x := by
  cases x <;> rfl

end

namespace Parser

def skip? (kind : TokenKind) (ts : List Token) : Option (List Token) :=
  (accept? kind ts).map Parsed.rest

theorem skip?_eq_some {kind : TokenKind} {ts rest : List Token} :
    skip? kind ts = some rest ↔ Next kind ts rest := by
  rw [skip?]
  rcases accept?_cases kind ts with ⟨ha, hn⟩ | ⟨r, h, ha, hn⟩
  · simp [ha, hn]
  · simp [ha, hn, eq_comm]

theorem skip?_eq_none {kind : TokenKind} {ts : List Token} :
    skip? kind ts = none ↔ ∀ rest, ¬ Next kind ts rest := by
  simp only [← skip?_eq_some, Option.eq_none_iff_forall_ne_some, ne_eq]

variable (p : Parser) {d : Nat} {kind : TokenKind} {ts rest : List Token}

/-! ## single tokens -/

theorem bare_expect (expected : String) : bare (p.expect kind expected ts) =
    (skip? kind ts).elim (.error (p.unexpected ts expected)) fun r => .ok ((), r) := by
  rw [expect, skip?]
  cases accept? kind ts <;> rfl

theorem bare_memberName {name : String} (h : Next (.identifier name) ts rest) :
    bare (p.memberName ts) = .ok (name, rest) :=
  bare_eq_ok.2 (p.reads_memberName.2 h)

theorem bare_memberName_other (h : ∀ name r, ¬ Next (.identifier name) ts r) :
    bare (p.memberName ts) = .error (p.unexpected ts "member name after '.'") := by
  rw [memberName.eq_def]
  split
  · next name span r => exact absurd (next_cons.2 ⟨rfl, rfl⟩) (h name r)
  · rfl

/-! ## expressions and operators -/

theorem bare_expression :
    bare (p.expression d ts) = p.enter d ts >>= fun _ => bare (p.ternary (d + 1) ts) := by
  rw [expression, bare_check]

theorem bare_ternary : bare (p.ternary d ts) = bare (p.binary d 1 ts) >>= fun c =>
    (skip? .question c.2).elim (.ok c) fun r =>
      bare (p.expression d r) >>= fun t =>
      bare (p.expect .colon "':' in conditional expression" t.2) >>= fun colon =>
      bare (p.expression d colon.2) >>= fun f => .ok (.conditional c.1 t.1 f.1, f.2) := by
  rw [ternary]
  refine bare_bind fun c => ?_
  dsimp only
  rw [skip?]
  cases accept? .question c.rest with
  | none => rfl
  | some r => exact bare_bind fun t => bare_bind fun colon => bare_bind fun f => rfl

theorem bare_binary {least : Nat} : bare (p.binary d least ts) =
    bare (p.unary d ts) >>= fun f => bare (p.links d least 0 f.1 f.2) := by
  rw [binary]
  exact bare_bind fun f => bare_weaken _

theorem bare_links_other {least count : Nat} {left : Expr}
    (h : ∀ op r, Next (.operator op) ts r → op.precedence < least) :
    bare (p.links d least count left ts) = .ok (left, ts) :=
  bare_eq_ok.2 (p.reads_links.2 (.inl ⟨h, rfl, rfl⟩))

theorem bare_links {least count : Nat} {left : Expr} {op : BinaryOp}
    (h : Next (.operator op) ts rest) (hp : least ≤ op.precedence) :
    bare (p.links d least count left ts) = p.extend count ts >>= fun _ =>
      bare (p.binary d (op.precedence + 1) ts.tail) >>= fun right =>
      bare (p.links d least (count + 1) (.binary left op right.1) right.2) := by
  obtain ⟨t, rfl, ht⟩ := h
  rw [links.eq_def]
  simp only [ht, Nat.not_lt.2 hp, if_false, bare_check]
  exact congrArg _ (funext fun _ => bare_bind fun right => bare_weaken _)

theorem bare_unary_other (h : ∀ (op : UnaryOp) r, ¬ Next op.kind ts r) :
    bare (p.unary d ts) = bare (p.chain d ts) := by
  rw [unary.eq_def]
  cases ts with
  | nil => rfl
  | cons t ts =>
    dsimp only
    split
    · rfl
    · next op hu => exact absurd (next_cons.2 ⟨unaryOp?_eq_some.1 hu, rfl⟩) (h op ts)

theorem bare_unary {op : UnaryOp} (h : Next op.kind ts rest) : bare (p.unary d ts) =
    p.enter d ts.tail >>= fun _ => bare (p.unary (d + 1) ts.tail) >>= fun e =>
      .ok (.unary op e.1, e.2) := by
  obtain ⟨t, rfl, ht⟩ := h
  rw [unary.eq_def]
  simp only [unaryOp?_eq_some.2 ht, bare_check]
  exact congrArg _ (funext fun _ => bare_bind fun e => rfl)

/-! ## primaries and trailers -/

theorem bare_chain : bare (p.chain d ts) =
    bare (p.primary d ts) >>= fun f => bare (p.trailers d 0 f.1 f.2) := by
  rw [chain]
  exact bare_bind fun f => bare_weaken _

section
variable {count : Nat} {target : Expr}

theorem bare_trailers_other
    (h : ∀ r, ¬ Next .dot ts r ∧ ¬ Next .leftBracket ts r ∧ ¬ Next .leftParen ts r) :
    bare (p.trailers d count target ts) = .ok (target, ts) :=
  bare_eq_ok.2 (p.reads_trailers.2 (.inl ⟨h, rfl, rfl⟩))

theorem bare_trailers_dot (h : Next .dot ts rest) : bare (p.trailers d count target ts) =
    p.extend count ts >>= fun _ => bare (p.memberName ts.tail) >>= fun name =>
      bare (p.trailers d (count + 1) (.member target name.1) name.2) := by
  obtain ⟨t, rfl, ht⟩ := h
  rw [trailers.eq_def]
  simp only [ht, bare_check]
  exact congrArg _ (funext fun _ => bare_bind fun name => bare_weaken _)

theorem bare_trailers_bracket (h : Next .leftBracket ts rest) :
    bare (p.trailers d count target ts) =
      p.extend count ts >>= fun _ => bare (p.expression d ts.tail) >>= fun key =>
      bare (p.expect .rightBracket "']'" key.2) >>= fun close =>
      bare (p.trailers d (count + 1) (.index target key.1) close.2) := by
  obtain ⟨t, rfl, ht⟩ := h
  rw [trailers.eq_def]
  simp only [ht, bare_check]
  exact congrArg _ (funext fun _ => bare_bind fun key => bare_bind fun close => bare_weaken _)

theorem bare_trailers_paren (h : Next .leftParen ts rest) :
    bare (p.trailers d count target ts) =
      p.extend count ts >>= fun _ =>
      bare (p.items d .rightParen "',' or ')'" ts.tail) >>= fun args =>
      bare (p.trailers d (count + 1) (.call target args.1) args.2) := by
  obtain ⟨t, rfl, ht⟩ := h
  rw [trailers.eq_def]
  simp only [ht, bare_check]
  exact congrArg _ (funext fun _ => bare_bind fun args => bare_weaken _)

end

theorem bare_primary_atom {e : Expr} (h : Next kind ts rest) (he : Atom kind e) :
    bare (p.primary d ts) = .ok (e, rest) :=
  bare_eq_ok.2 (p.reads_primary.2 (.inl ⟨kind, h, he⟩))

theorem bare_primary_paren (h : Next .leftParen ts rest) : bare (p.primary d ts) =
    bare (p.expression d ts.tail) >>= fun e =>
      bare (p.expect .rightParen "')'" e.2) >>= fun close => .ok (e.1, close.2) := by
  obtain ⟨t, rfl, ht⟩ := h
  rw [primary.eq_def]
  simp only [ht, atom?]
  exact bare_bind fun e => bare_bind fun close => rfl

theorem bare_primary_new (h : Next .new ts rest) :
    bare (p.primary d ts) = bare (p.collection d ts.tail) := by
  obtain ⟨t, rfl, ht⟩ := h
  rw [primary.eq_def]
  simp only [ht, atom?]
  exact bare_weaken _

theorem bare_primary_other (ha : ∀ kind r e, Next kind ts r → ¬ Atom kind e)
    (h : ∀ r, ¬ Next .leftParen ts r ∧ ¬ Next .new ts r) :
    bare (p.primary d ts) = .error (p.unexpected ts "expression") := by
  rw [primary.eq_def]
  cases ts with
  | nil => rfl
  | cons t ts =>
    dsimp only
    split
    · next e he => exact absurd (atom?_eq_some.1 he) (ha _ _ _ (next_cons.2 ⟨rfl, rfl⟩))
    · split
      · next hk => exact absurd (next_cons.2 ⟨hk, rfl⟩) (h ts).1
      · next hk => exact absurd (next_cons.2 ⟨hk, rfl⟩) (h ts).2
      · rfl

/-! ## collections -/

theorem bare_collection_bracket (h : Next .leftBracket ts rest) : bare (p.collection d ts) =
    bare (p.expect .rightBracket "']' after 'new['" ts.tail) >>= fun close =>
      bare (p.expect .leftBrace "'\x7b' to start array elements" close.2) >>= fun start =>
      bare (p.items d .rightBrace "',' or '\x7d'" start.2) >>= fun es =>
      .ok (.array es.1, es.2) := by
  obtain ⟨t, rfl, ht⟩ := h
  rw [collection.eq_def]
  simp only [ht]
  exact bare_bind fun close => bare_bind fun start => bare_bind fun es => rfl

theorem bare_collection_dictionary (h : Next .dictionary ts rest) : bare (p.collection d ts) =
    bare (p.expect .leftBrace "'\x7b' to start dictionary entries" ts.tail) >>= fun start =>
      bare (p.pairs d start.2) >>= fun ps => .ok (.dictionary ps.1, ps.2) := by
  obtain ⟨t, rfl, ht⟩ := h
  rw [collection.eq_def]
  simp only [ht]
  exact bare_bind fun start => bare_bind fun ps => rfl

theorem bare_collection_other (h : ∀ r, ¬ Next .leftBracket ts r ∧ ¬ Next .dictionary ts r) :
    bare (p.collection d ts) = .error (p.unexpected ts "'[' or 'dictionary' after 'new'") := by
  rw [collection.eq_def]
  cases ts with
  | nil => rfl
  | cons t ts =>
    dsimp only
    split
    · next hk => exact absurd (next_cons.2 ⟨hk, rfl⟩) (h ts).1
    · next hk => exact absurd (next_cons.2 ⟨hk, rfl⟩) (h ts).2
    · rfl

theorem bare_items {close : TokenKind} {expected : String} :
    bare (p.items d close expected ts) =
      (skip? close ts).elim (bare (p.itemsFrom d close expected ts)) fun r => .ok ([], r) := by
  rw [items, skip?]
  cases accept? close ts <;> rfl

theorem bare_itemsFrom {close : TokenKind} {expected : String} :
    bare (p.itemsFrom d close expected ts) = bare (p.expression d ts) >>= fun e =>
      (skip? .comma e.2).elim
        (bare (p.expect close expected e.2) >>= fun done => .ok ([e.1], done.2))
        fun r => bare (p.itemsFrom d close expected r) >>= fun es => .ok (e.1 :: es.1, es.2) := by
  rw [itemsFrom]
  refine bare_bind fun e => ?_
  dsimp only
  rw [skip?]
  cases accept? .comma e.rest with
  | none => exact bare_bind fun done => rfl
  | some r => exact bare_bind fun es => rfl

theorem bare_pairs : bare (p.pairs d ts) =
    (skip? .rightBrace ts).elim (bare (p.pairsFrom d ts)) fun r => .ok ([], r) := by
  rw [pairs, skip?]
  cases accept? .rightBrace ts <;> rfl

theorem bare_pairsFrom : bare (p.pairsFrom d ts) =
    bare (p.expect .leftBrace "'\x7b' to start a dictionary entry" ts) >>= fun start =>
      bare (p.expression d start.2) >>= fun k =>
      bare (p.expect .comma "',' between key and value" k.2) >>= fun divider =>
      bare (p.expression d divider.2) >>= fun v =>
      bare (p.expect .rightBrace "'\x7d' to close a dictionary entry" v.2) >>= fun close =>
      (skip? .comma close.2).elim
        (bare (p.expect .rightBrace "',' or '\x7d'" close.2) >>= fun done =>
          .ok ([(k.1, v.1)], done.2))
        fun r => bare (p.pairsFrom d r) >>= fun ps => .ok ((k.1, v.1) :: ps.1, ps.2) := by
  rw [pairsFrom]
  refine bare_bind fun start => bare_bind fun k => bare_bind fun divider => bare_bind fun v =>
    bare_bind fun close => ?_
  dsimp only
  rw [skip?]
  cases accept? .comma close.rest with
  | none => exact bare_bind fun done => rfl
  | some r => exact bare_bind fun ps => rfl

end Parser

end ExprLang
