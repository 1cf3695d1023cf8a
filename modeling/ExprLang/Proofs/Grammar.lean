import ExprLang.Expr
import ExprLang.Token

/-!
# The grammar of expressions

    expression  := ternary
    ternary     := binary 1 | binary 1 '?' expression ':' expression
    binary k    := binary (k+1) | binary k (operator of precedence k) binary (k+1)     k = 1 .. 6
    binary 7    := unary
    unary       := '-' unary | '!' unary | chain
    chain       := primary | chain '.' identifier | chain '[' expression ']' | chain '(' items ')'
    primary     := number | string | boolean | null | identifier | '(' expression ')'
                 | 'new' '[' ']' '{' items '}' | 'new' 'dictionary' '{' entries '}'
    items       := (expression (',' expression)*)?
    entries     := (entry (',' entry)*)?          entry := '{' expression ',' expression '}'

* `Phrase`           what tokens can be derived as, with the tree they stand for;
* `Atom`             the tokens that are an expression on their own;
* `Derives c n`      the derivations with nesting at most `n` and at most `c` links in every run.

An expression and the operand of a unary operator are one level of nesting each.  The links of a run
are its trailers, or the operators on the left spine of a `binary`; a group starts anew.

`Derives.mono` says that larger limits derive no less; `Derives.opens` and `Derives.eof_not_mem` say
which tokens a derivation cannot start with, or have.
-/

namespace ExprLang

/-- the token in front of the operand -/
def UnaryOp.kind : UnaryOp → TokenKind
  | .negate => .operator .subtract
  | .not => .not

/-- can a phrase start with the token -/
def TokenKind.opens : TokenKind → Bool
  | .number _ | .string _ | .boolean _ | .null | .identifier _ => true
  | .operator .subtract | .not | .leftParen | .leftBrace | .new => true
  | _ => false

inductive Phrase where
  | expression (e : Expr)
  | ternary (e : Expr)
  /-- operators of the precedence `level` or more, `links` of them on the left spine -/
  | binary (level links : Nat) (e : Expr)
  | unary (e : Expr)
  /-- a primary with `links` trailers -/
  | chain (links : Nat) (e : Expr)
  | primary (e : Expr)
  | items (es : List Expr)
  | entries (ps : List (Expr × Expr))

inductive Atom : TokenKind → Expr → Prop where
  | number (a : Decimal) : Atom (.number a) (.constant (.number a))
  | string (s : String) : Atom (.string s) (.constant (.text s))
  | boolean (b : Bool) : Atom (.boolean b) (.constant (.boolean b))
  | null : Atom .null (.constant .null)
  | variable (name : String) : Atom (.identifier name) (.var name)

/-- the tokens are the phrase, with nesting at most `n` and at most `c` links in every run -/
inductive Derives (c : Nat) : (n : Nat) → List TokenKind → Phrase → Prop where
  | expression {n ks e} : Derives c n ks (.ternary e) → Derives c (n + 1) ks (.expression e)
  | plain {n ks s e} : Derives c n ks (.binary 1 s e) → s ≤ c → Derives c n ks (.ternary e)
  | conditional {n ks s e ls t ms f} : Derives c n ks (.binary 1 s e) → s ≤ c →
      Derives c n ls (.expression t) → Derives c n ms (.expression f) →
      Derives c n (ks ++ .question :: (ls ++ .colon :: ms)) (.ternary (.conditional e t f))
  | operand {n ks e} : Derives c n ks (.unary e) → Derives c n ks (.binary 7 0 e)
  | tighter {n ks k s e} : Derives c n ks (.binary (k + 1) s e) → Derives c n ks (.binary k s e)
  | link {n ks k s l ls s' r} (op : BinaryOp) : op.precedence = k →
      Derives c n ks (.binary k s l) → Derives c n ls (.binary (k + 1) s' r) → s' ≤ c →
      Derives c n (ks ++ .operator op :: ls) (.binary k (s + 1) (.binary l op r))
  | unary {n ks e} (op : UnaryOp) : Derives c n ks (.unary e) →
      Derives c (n + 1) (op.kind :: ks) (.unary (.unary op e))
  | chain {n ks s e} : Derives c n ks (.chain s e) → s ≤ c → Derives c n ks (.unary e)
  | primary {n ks e} : Derives c n ks (.primary e) → Derives c n ks (.chain 0 e)
  | member {n ks s e} (name : String) : Derives c n ks (.chain s e) →
      Derives c n (ks ++ [.dot, .identifier name]) (.chain (s + 1) (.member e name))
  | index {n ks s e ls key} : Derives c n ks (.chain s e) → Derives c n ls (.expression key) →
      Derives c n (ks ++ .leftBracket :: (ls ++ [.rightBracket])) (.chain (s + 1) (.index e key))
  | call {n ks s e ls args} : Derives c n ks (.chain s e) → Derives c n ls (.items args) →
      Derives c n (ks ++ .leftParen :: (ls ++ [.rightParen])) (.chain (s + 1) (.call e args))
  | atom {n k e} : Atom k e → Derives c n [k] (.primary e)
  | group {n ks e} : Derives c n ks (.expression e) →
      Derives c n (.leftParen :: (ks ++ [.rightParen])) (.primary e)
  | array {n ks es} : Derives c n ks (.items es) →
      Derives c n (.new :: .leftBracket :: .rightBracket :: .leftBrace :: (ks ++ [.rightBrace]))
        (.primary (.array es))
  | dictionary {n ks ps} : Derives c n ks (.entries ps) →
      Derives c n (.new :: .dictionary :: .leftBrace :: (ks ++ [.rightBrace]))
        (.primary (.dictionary ps))
  | noItems {n} : Derives c n [] (.items [])
  | lastItem {n ks e} : Derives c n ks (.expression e) → Derives c n ks (.items [e])
  | moreItems {n ks e ls es} : Derives c n ks (.expression e) → Derives c n ls (.items es) →
      es ≠ [] → Derives c n (ks ++ .comma :: ls) (.items (e :: es))
  | noEntries {n} : Derives c n [] (.entries [])
  | lastEntry {n ks k ls v} : Derives c n ks (.expression k) → Derives c n ls (.expression v) →
      Derives c n (.leftBrace :: (ks ++ .comma :: (ls ++ [.rightBrace]))) (.entries [(k, v)])
  | moreEntries {n ks k ls v ms ps} : Derives c n ks (.expression k) →
      Derives c n ls (.expression v) → Derives c n ms (.entries ps) → ps ≠ [] →
      Derives c n (.leftBrace :: (ks ++ .comma :: (ls ++ .rightBrace :: .comma :: ms)))
        (.entries ((k, v) :: ps))

namespace Derives

variable {c n : Nat} {ks : List TokenKind} {ph : Phrase}

/-! ## larger limits -/

theorem mono (h : Derives c n ks ph) {c' n' : Nat} (hc : c ≤ c') (hn : n ≤ n') :
    Derives c' n' ks ph := by
  induction h generalizing n' with
  | expression _ ih =>
    obtain ⟨m, rfl⟩ : ∃ m, n' = m + 1 := ⟨n' - 1, by omega⟩
    exact .expression (ih (by omega))
  | plain _ hs ih => exact .plain (ih hn) (by omega)
  | conditional _ hs _ _ ih1 ih2 ih3 => exact .conditional (ih1 hn) (by omega) (ih2 hn) (ih3 hn)
  | operand _ ih => exact .operand (ih hn)
  | tighter _ ih => exact .tighter (ih hn)
  | link op hp _ _ hs ih1 ih2 => exact .link op hp (ih1 hn) (ih2 hn) (by omega)
  | unary op _ ih =>
    obtain ⟨m, rfl⟩ : ∃ m, n' = m + 1 := ⟨n' - 1, by omega⟩
    exact .unary op (ih (by omega))
  | chain _ hs ih => exact .chain (ih hn) (by omega)
  | primary _ ih => exact .primary (ih hn)
  | member name _ ih => exact .member name (ih hn)
  | index _ _ ih1 ih2 => exact .index (ih1 hn) (ih2 hn)
  | call _ _ ih1 ih2 => exact .call (ih1 hn) (ih2 hn)
  | atom ha => exact .atom ha
  | group _ ih => exact .group (ih hn)
  | array _ ih => exact .array (ih hn)
  | dictionary _ ih => exact .dictionary (ih hn)
  | noItems => exact .noItems
  | lastItem _ ih => exact .lastItem (ih hn)
  | moreItems _ _ hne ih1 ih2 => exact .moreItems (ih1 hn) (ih2 hn) hne
  | noEntries => exact .noEntries
  | lastEntry _ _ ih1 ih2 => exact .lastEntry (ih1 hn) (ih2 hn)
  | moreEntries _ _ _ hne ih1 ih2 ih3 => exact .moreEntries (ih1 hn) (ih2 hn) (ih3 hn) hne

/-- operators of at least a precedence are operators of at least any lower one -/
theorem lower {k l s : Nat} {e : Expr} (h : Derives c n ks (.binary k s e)) (hl : l ≤ k) :
    Derives c n ks (.binary l s e) := by
  obtain ⟨d, rfl⟩ := Nat.exists_eq_add_of_le hl
  induction d with
  | zero => exact h
  | succ d ih => exact ih (.tighter h) (Nat.le_add_right l d)

/-! ## the tokens of a derivation -/

/-- a derivation is empty only where there is nothing to list -/
theorem opens (h : Derives c n ks ph) (hi : ph ≠ .items []) (he : ph ≠ .entries []) :
    ∃ k ls, ks = k :: ls ∧ k.opens = true := by
  have first {ks ls : List TokenKind} (h : ∃ k ls, ks = k :: ls ∧ k.opens = true) :
      ∃ k ms, ks ++ ls = k :: ms ∧ k.opens = true := by
    obtain ⟨k, ms, rfl, hk⟩ := h
    exact ⟨k, ms ++ ls, rfl, hk⟩
  induction h with
  | expression _ ih | plain _ _ ih | operand _ ih | tighter _ ih | chain _ _ ih | primary _ ih
  | lastItem _ ih => exact ih nofun nofun
  | conditional _ _ _ _ ih | link _ _ _ _ _ ih | member _ _ ih | index _ _ ih | call _ _ ih
  | moreItems _ _ _ ih => exact first (ih nofun nofun)
  | unary op => exact ⟨_, _, rfl, by cases op <;> rfl⟩
  | atom ha => exact ⟨_, _, rfl, by cases ha <;> rfl⟩
  | group | array | dictionary | lastEntry | moreEntries => exact ⟨_, _, rfl, rfl⟩
  | noItems => exact absurd rfl hi
  | noEntries => exact absurd rfl he

theorem eof_not_mem (h : Derives c n ks ph) : TokenKind.eof ∉ ks := by
  induction h with
  | unary op => cases op <;> simp_all [UnaryOp.kind]
  | atom ha => cases ha <;> simp
  | _ => simp_all

end Derives

end ExprLang
