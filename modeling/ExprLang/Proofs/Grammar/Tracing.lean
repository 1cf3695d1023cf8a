import ExprLang.Proofs.Grammar.Steps

/-!
# Where a reader ends

A reader never looks past the next token, and only at the kinds of the tokens.

* `Alike us vs`, `SameNext ts us`   tokens of the same kinds; with the same kind of next token;
* `Parser.Fault`             what a reader finds wrong; `Parser.fault` is the error at some tokens;
* `Parser.result ts o`       the result of a reader that ends in front of `ts`, with a value or fault;
* `Parser.Keeps p q o`       the limits of `q` are no smaller, and the outcome `o` does not change;
* `Settles F p us rest o`    the tokens `us` in front of `rest` have the outcome `o`, and so have all
                             tokens like these;
* `Traced V F p ts`          the tokens `ts` are settled at some place; in front of an unexpected
                             token, the kinds of the tokens satisfy `V`.

One lemma for each kind of step puts traces together.
-/

namespace ExprLang

theorem Next.lt {kind : TokenKind} {ts rest : List Token} (h : Next kind ts rest) :
    rest.length < ts.length := by
  obtain ⟨t, rfl, -⟩ := h
  exact Nat.lt_succ_self _

def Alike (us vs : List Token) : Prop := vs.map Token.kind = us.map Token.kind

def SameNext (ts us : List Token) : Prop := us.head?.map Token.kind = ts.head?.map Token.kind

namespace Alike

variable {us vs ws : List Token} {t : Token}

theorem refl (us : List Token) : Alike us us := rfl

theorem nil_iff : Alike [] ws ↔ ws = [] := List.map_eq_nil_iff

theorem cons_iff : Alike (t :: us) ws ↔ ∃ u vs, ws = u :: vs ∧ u.kind = t.kind ∧ Alike us vs :=
  List.map_eq_cons_iff

theorem append_iff : Alike (us ++ vs) ws ↔ ∃ us' vs', ws = us' ++ vs' ∧ Alike us us' ∧
    Alike vs vs' := by
  rw [Alike, List.map_append]
  exact List.map_eq_append_iff

end Alike

namespace SameNext

variable {ts ts' us us' rest : List Token} {kind : TokenKind}

theorem refl (ts : List Token) : SameNext ts ts := rfl

theorem append (hu : Alike us us') (ht : SameNext ts ts') : SameNext (us ++ ts) (us' ++ ts') := by
  cases us with
  | nil =>
    obtain rfl := Alike.nil_iff.1 hu
    exact ht
  | cons u us =>
    obtain ⟨v, vs, rfl, hk, -⟩ := Alike.cons_iff.1 hu
    exact congrArg some hk

theorem next (h : SameNext ts ts') (hn : Next kind ts rest) : ∃ rest', Next kind ts' rest' := by
  obtain ⟨t, rfl, rfl⟩ := hn
  cases ts' with
  | nil => cases h
  | cons u us => exact ⟨us, Parser.next_cons.2 ⟨Option.some.inj h, rfl⟩⟩

theorem symm (h : SameNext ts ts') : SameNext ts' ts := Eq.symm h

theorem not_next (h : SameNext ts ts') (hn : ∀ r, ¬ Next kind ts r) (r : List Token) :
    ¬ Next kind ts' r := by
  intro hr
  obtain ⟨r', hr'⟩ := h.symm.next hr
  exact hn r' hr'

end SameNext

namespace Parser

inductive Fault where
  | unexpected (expected : String)
  | nesting
  | chain

def fault (p : Parser) (ts : List Token) : Fault → ParseError
  | .unexpected expected => p.unexpected ts expected
  | .nesting => .nestingTooDeep (p.position ts) p.maxNesting
  | .chain => .chainTooLong (p.position ts) p.maxChain

def result {α : Type} (p : Parser) (ts : List Token) :
    Except Fault α → Except ParseError (α × List Token)
  | .ok v => .ok (v, ts)
  | .error x => .error (p.fault ts x)

/-- a limit that is crossed stays as it is -/
structure Keeps {α : Type} (p q : Parser) (o : Except Fault α) : Prop where
  nesting : p.maxNesting ≤ q.maxNesting
  chain : p.maxChain ≤ q.maxChain
  sameNesting : o = .error .nesting → q.maxNesting = p.maxNesting
  sameChain : o = .error .chain → q.maxChain = p.maxChain

abbrev Reader (α : Type) : Type := Parser → List Token → Except ParseError (α × List Token)

section
variable {α β : Type} {p q : Parser}

theorem Keeps.refl (p : Parser) (o : Except Fault α) : p.Keeps p o :=
  ⟨Nat.le_refl _, Nat.le_refl _, fun _ => rfl, fun _ => rfl⟩

/-- a value is kept by all greater limits -/
theorem Keeps.ok {o : Except Fault α} (h : p.Keeps q o) (v : β) :
    p.Keeps q (.ok v : Except Fault β) :=
  ⟨h.nesting, h.chain, nofun, nofun⟩

theorem Keeps.error {x : Fault} (h : p.Keeps q (.error x : Except Fault α)) :
    p.Keeps q (.error x : Except Fault β) :=
  ⟨h.nesting, h.chain, fun hx => h.sameNesting (congrArg _ (Except.error.inj hx)),
    fun hx => h.sameChain (congrArg _ (Except.error.inj hx))⟩

def Settles (F : Reader α) (p : Parser) (us rest : List Token) (o : Except Fault α) : Prop :=
  ∀ q us' rest', p.Keeps q o → Alike us us' → SameNext rest rest' →
    F q (us' ++ rest') = q.result rest' o

def Traced (V : List TokenKind → Prop) (F : Reader α) (p : Parser) (ts : List Token) : Prop :=
  ∃ us rest o, ts = us ++ rest ∧ Settles F p us rest o ∧
    ∀ expected, o = .error (.unexpected expected) → V (us.map Token.kind)

end

theorem Settles.self {α : Type} {F : Reader α} {p : Parser} {us rest : List Token}
    {o : Except Fault α} (h : Settles F p us rest o) : F p (us ++ rest) = p.result rest o :=
  h p us rest (.refl p o) (.refl us) (.refl rest)

namespace Traced

variable {α β : Type} {V W : List TokenKind → Prop} {F G : Reader α} {p : Parser} {d count : Nat}
  {ts : List Token} {kind : TokenKind} {expected : String}

theorem mono (h : Traced V F p ts) (hV : ∀ ks, V ks → W ks) : Traced W F p ts := by
  obtain ⟨us, rest, o, hts, ho, hVo⟩ := h
  exact ⟨us, rest, o, hts, ho, fun e he => hV _ (hVo e he)⟩

/-! ## at the next token -/

/-- nothing is read -/
theorem here {o : Except Fault α} (hV : ∀ expected, o = .error (.unexpected expected) → V [])
    (h : ∀ q us, p.Keeps q o → SameNext ts us → F q us = q.result us o) : Traced V F p ts := by
  refine ⟨[], ts, o, rfl, fun q us' rest' hq hu hr => ?_, hV⟩
  obtain rfl := Alike.nil_iff.1 hu
  exact h q rest' hq hr

theorem ok (v : α) : Traced V (fun _ ts => .ok (v, ts)) p ts :=
  here (o := .ok v) nofun fun _ _ _ _ => rfl

theorem unexpected (hV : V []) (expected : String) :
    Traced V (fun q ts => (.error (q.unexpected ts expected) : Except _ (α × _))) p ts :=
  here (o := .error (.unexpected expected)) (fun _ _ => hV) fun _ _ _ _ => rfl

/-- which step is taken depends on the kind of the next token -/
theorem look (h : ∀ q us, SameNext ts us → F q us = G q us) (hG : Traced V G p ts) :
    Traced V F p ts := by
  obtain ⟨us, rest, o, rfl, ho, hV⟩ := hG
  refine ⟨us, rest, o, rfl, fun q us' rest' hq hu hr => ?_, hV⟩
  rw [h q _ (.append hu hr)]
  exact ho q us' rest' hq hu hr

theorem tail {rest : List Token} (hn : Next kind ts rest)
    (hG : Traced (fun ks => V (kind :: ks)) G p rest) : Traced V (fun q ts => G q ts.tail) p ts := by
  obtain ⟨t, rfl, rfl⟩ := hn
  obtain ⟨us, rest, o, rfl, ho, hV⟩ := hG
  refine ⟨t :: us, rest, o, rfl, fun q us' rest' hq hu hr => ?_, hV⟩
  obtain ⟨u, us', rfl, -, hu⟩ := Alike.cons_iff.1 hu
  exact ho q us' rest' hq hu hr

theorem skip {H : Reader α}
    (hsome : ∀ rest, Next kind ts rest → Traced (fun ks => V (kind :: ks)) H p rest)
    (hnone : (∀ rest, ¬ Next kind ts rest) → Traced V F p ts) :
    Traced V (fun q ts => (skip? kind ts).elim (F q ts) (H q)) p ts := by
  by_cases hn : ∃ rest, Next kind ts rest
  · obtain ⟨rest, hn⟩ := hn
    refine look (fun q us hu => ?_) (tail hn (hsome rest hn))
    obtain ⟨rest', u, rfl, hk⟩ := hu.next hn
    rw [skip?_eq_some.2 (next_cons.2 ⟨hk, rfl⟩)]
    rfl
  · have hn : ∀ rest, ¬ Next kind ts rest := fun rest h => hn ⟨rest, h⟩
    refine look (fun q us hu => ?_) (hnone hn)
    rw [skip?_eq_none.2 (hu.not_next hn)]
    rfl

/-! ## steps in sequence -/

theorem bind {F : Reader β} {G : Parser → β × List Token → Except ParseError (α × List Token)}
    (hF : Traced V F p ts)
    (hG : ∀ us v rest, ts = us ++ rest → F p ts = .ok (v, rest) →
      Traced (fun ks => V (us.map Token.kind ++ ks)) (fun q r => G q (v, r)) p rest) :
    Traced V (fun q ts => F q ts >>= G q) p ts := by
  obtain ⟨us, rest, o, rfl, ho, hV⟩ := hF
  cases o with
  | error x =>
    refine ⟨us, rest, .error x, rfl, fun q us' rest' hq hu hr => ?_, fun e he => hV e ?_⟩
    · show F q (us' ++ rest') >>= G q = _
      rw [ho q us' rest' hq.error hu hr]
      rfl
    · exact congrArg _ (Except.error.inj he)
  | ok v =>
    obtain ⟨vs, rest, o, rfl, ho', hV'⟩ := hG us v rest rfl ho.self
    refine ⟨us ++ vs, rest, o, by rw [List.append_assoc], fun q us' rest' hq hu hr => ?_,
      fun e he => ?_⟩
    · obtain ⟨us', vs', rfl, hu, hvs⟩ := Alike.append_iff.1 hu
      show F q (us' ++ vs' ++ rest') >>= G q = _
      rw [List.append_assoc, ho q us' _ (hq.ok v) hu (.append hvs hr)]
      exact ho' q vs' rest' hq hvs hr
    · rw [List.map_append]
      exact hV' e he

theorem expect {G : Parser → Unit × List Token → Except ParseError (α × List Token)} (hV : V [])
    (hG : ∀ rest, Next kind ts rest →
      Traced (fun ks => V (kind :: ks)) (fun q r => G q ((), r)) p rest) :
    Traced V (fun q ts => bare (q.expect kind expected ts) >>= G q) p ts := by
  have h : Traced V (fun q ts => (skip? kind ts).elim (.error (q.unexpected ts expected))
      fun r => G q ((), r)) p ts := skip hG fun _ => unexpected hV expected
  refine look (fun q us _ => ?_) h
  rw [bare_expect]
  cases skip? kind us <;> rfl

theorem memberName {G : Parser → String × List Token → Except ParseError (α × List Token)}
    (hV : V [])
    (hG : ∀ name rest, Next (.identifier name) ts rest →
      Traced (fun ks => V (.identifier name :: ks)) (fun q r => G q (name, r)) p rest) :
    Traced V (fun q ts => bare (q.memberName ts) >>= G q) p ts := by
  by_cases hn : ∃ name rest, Next (.identifier name) ts rest
  · obtain ⟨name, rest, hn⟩ := hn
    refine look (fun q us hu => ?_) (tail hn (hG name rest hn))
    obtain ⟨rest', u, rfl, hk⟩ := hu.next hn
    rw [q.bare_memberName (next_cons.2 ⟨hk, rfl⟩)]
    rfl
  · have hn : ∀ name rest, ¬ Next (.identifier name) ts rest := fun name rest h => hn ⟨_, _, h⟩
    refine look (fun q us hu => ?_) (unexpected hV "member name after '.'")
    rw [q.bare_memberName_other fun name => hu.not_next (hn name)]
    rfl

theorem enter (h : d < p.maxNesting → Traced V F p ts) :
    Traced V (fun q ts => q.enter d ts >>= fun _ => F q ts) p ts := by
  by_cases hd : d < p.maxNesting
  · obtain ⟨us, rest, o, rfl, ho, hV⟩ := h hd
    refine ⟨us, rest, o, rfl, fun q us' rest' hq hu hr => ?_, hV⟩
    have hn := hq.nesting
    have he : q.enter d (us' ++ rest') = .ok () := if_neg (by omega)
    simp only [he]
    exact ho q us' rest' hq hu hr
  · refine here (o := .error .nesting) nofun fun q us hq _ => ?_
    have hn := hq.sameNesting rfl
    have he : q.enter d us = .error (q.fault us .nesting) := if_pos (by omega)
    rw [he]
    rfl

theorem extend (h : count < p.maxChain → Traced V F p ts) :
    Traced V (fun q ts => q.extend count ts >>= fun _ => F q ts) p ts := by
  by_cases hd : count < p.maxChain
  · obtain ⟨us, rest, o, rfl, ho, hV⟩ := h hd
    refine ⟨us, rest, o, rfl, fun q us' rest' hq hu hr => ?_, hV⟩
    have hn := hq.chain
    have he : q.extend count (us' ++ rest') = .ok () := if_neg (by omega)
    simp only [he]
    exact ho q us' rest' hq hu hr
  · refine here (o := .error .chain) nofun fun q us hq _ => ?_
    have hn := hq.sameChain rfl
    have he : q.extend count us = .error (q.fault us .chain) := if_pos (by omega)
    rw [he]
    rfl

end Traced

end Parser

end ExprLang
