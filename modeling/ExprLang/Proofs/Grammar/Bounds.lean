import ExprLang.Proofs.Grammar.Exactness
import ExprLang.Proofs.Semantics.Depth

/-!
# What is parsed is not too deep

Between one level of nesting and the next there are six levels of binary operators and one of
trailers, each with one run at most, and a ternary.  A run of `s` links makes a tree deeper by `s`,
and an evaluation by one at most.  So with runs that count `r`, a level of nesting counts
`7 * r + 2`; the lowest one has no ternary, since there is nothing to branch to.

* `primaryBound r n`     how deep a primary can be, with `n` levels of nesting;
* `Phrase.Shallow c n`   the trees of a phrase are no deeper than derivations within the limits allow,
                         for trees with `r = c`, for evaluations with `r = 1`.

`Derives.shallow` is by induction on the derivation, and `parse_shallow` says it of texts.
-/

namespace ExprLang

def primaryBound (r n : Nat) : Nat := max 1 (n * (7 * r + 2))

theorem primaryBound_pos (r n : Nat) : 1 ≤ primaryBound r n := Nat.le_max_left ..

theorem primaryBound_of_pos (r : Nat) {n : Nat} (h : 1 ≤ n) :
    primaryBound r n = n * (7 * r + 2) :=
  Nat.max_eq_right (Nat.mul_pos h (Nat.succ_pos _))

theorem primaryBound_succ (r n : Nat) :
    primaryBound r n + 7 * r + 1 ≤ primaryBound r (n + 1) := by
  rw [primaryBound, primaryBound, Nat.succ_mul n]
  omega

theorem primaryBound_succ_of_pos (r : Nat) {n : Nat} (h : 1 ≤ n) :
    primaryBound r (n + 1) = primaryBound r n + 7 * r + 2 := by
  rw [primaryBound_of_pos r h, primaryBound_of_pos r (Nat.le_succ_of_le h), Nat.succ_mul n]
  omega

/-- a run of operators behind an operator is of a level tighter, and has its place in the bound -/
theorem run_le {c k s : Nat} (hk : k ≤ 6) (hs : s ≤ c) (h7 : k + 1 = 7 → s = 0) :
    (6 - (k + 1)) * c + s ≤ (6 - k) * c := by
  by_cases h : k = 6
  · rw [h7 (by omega), h]
    omega
  · have hsucc : 6 - k = 6 - (k + 1) + 1 := by omega
    rw [hsucc, Nat.succ_mul]
    omega

namespace Phrase

def Shallow (c n : Nat) : Phrase → Prop
  | .expression e => 1 ≤ n ∧ e.depth < primaryBound c n ∧ e.evalDepth < primaryBound 1 n
  | .ternary e => e.depth < primaryBound c (n + 1) ∧ e.evalDepth < primaryBound 1 (n + 1)
  | .binary k s e => k ≤ 7 ∧ (k = 7 → s = 0) ∧
      e.depth ≤ primaryBound c n + c + (6 - k) * c + s ∧
      e.operandDepth ≤ primaryBound 1 n + 1 + (6 - k) ∧
      e.evalDepth ≤ primaryBound 1 n + 1 + (7 - k)
  | .unary e => e.depth ≤ primaryBound c n + c ∧ e.evalDepth ≤ primaryBound 1 n + 1
  | .chain s e => e.depth ≤ primaryBound c n + s ∧ e.targetDepth ≤ primaryBound 1 n ∧
      e.evalDepth ≤ primaryBound 1 n + 1
  | .primary e => e.depth ≤ primaryBound c n ∧ e.evalDepth ≤ primaryBound 1 n
  | .items es => Expr.depthOfList es < primaryBound c n ∧ Expr.evalDepthOfList es < primaryBound 1 n
  | .entries ps =>
      Expr.depthOfPairs ps < primaryBound c n ∧ Expr.evalDepthOfPairs ps < primaryBound 1 n

end Phrase

theorem Atom.depth_eq {k : TokenKind} {e : Expr} (h : Atom k e) :
    e.depth = 1 ∧ e.evalDepth = 1 := by
  cases h <;> exact ⟨by rw [Expr.depth], by rw [Expr.evalDepth]⟩

theorem Derives.shallow {c n : Nat} {ks : List TokenKind} {ph : Phrase} (h : Derives c n ks ph) :
    ph.Shallow c n := by
  induction h with
  | @expression n ks e _ ih => exact ⟨Nat.succ_pos n, ih⟩
  | @plain n ks s e _ hs ih =>
    obtain ⟨-, -, hd, -, he⟩ := ih
    have hc := primaryBound_succ c n
    have h1 := primaryBound_succ 1 n
    constructor <;> omega
  | @conditional n ks s e ls t ms f _ hs _ _ ihe iht ihf =>
    obtain ⟨-, -, hd, -, he⟩ := ihe
    obtain ⟨hn, htd, hte⟩ := iht
    obtain ⟨-, hfd, hfe⟩ := ihf
    have hc := primaryBound_succ_of_pos c hn
    have h1 := primaryBound_succ_of_pos 1 hn
    constructor
    · rw [Expr.depth]
      omega
    · rw [Expr.evalDepth]
      omega
  | @operand n ks e _ ih =>
    obtain ⟨hd, he⟩ := ih
    have ho := e.operandDepth_le
    refine ⟨Nat.le_refl 7, fun _ => rfl, ?_, ?_, ?_⟩ <;> omega
  | @tighter n ks k s e _ ih =>
    obtain ⟨hk, -, hd, ho, he⟩ := ih
    have hm : (6 - (k + 1)) * c ≤ (6 - k) * c := Nat.mul_le_mul_right c (by omega)
    refine ⟨by omega, by omega, ?_, ?_, ?_⟩ <;> omega
  | @link n ks k s l ls s' r op hop _ _ hs ihl ihr =>
    obtain ⟨hk, -, hld, hlo, -⟩ := ihl
    obtain ⟨-, h7, hrd, -, hre⟩ := ihr
    have hk6 : k ≤ 6 := hop ▸ op.precedence_le
    have hrun := run_le hk6 hs h7
    refine ⟨hk, by omega, ?_, ?_, ?_⟩
    · rw [Expr.depth]
      omega
    · rw [Expr.operandDepth_binary]
      omega
    · rw [Expr.evalDepth_binary]
      omega
  | @unary n ks e op _ ih =>
    obtain ⟨hd, he⟩ := ih
    have hc := primaryBound_succ c n
    have h1 := primaryBound_succ 1 n
    constructor
    · rw [Expr.depth]
      omega
    · rw [Expr.evalDepth]
      omega
  | chain _ hs ih =>
    obtain ⟨hd, -, he⟩ := ih
    exact ⟨by omega, he⟩
  | @primary n ks e _ ih =>
    obtain ⟨hd, he⟩ := ih
    have ht := e.targetDepth_le
    refine ⟨?_, ?_, ?_⟩ <;> omega
  | @member n ks s e name _ ih =>
    obtain ⟨hd, ht, -⟩ := ih
    refine ⟨?_, ?_, ?_⟩
    · rw [Expr.depth]
      omega
    · rwa [Expr.targetDepth_member]
    · rw [Expr.evalDepth_access rfl, Expr.targetDepth_member]
      omega
  | @index n ks s e ls key _ _ ih ihk =>
    obtain ⟨hd, ht, -⟩ := ih
    obtain ⟨-, hkd, hke⟩ := ihk
    refine ⟨?_, ?_, ?_⟩
    · rw [Expr.depth]
      omega
    · rw [Expr.targetDepth_index]
      omega
    · rw [Expr.evalDepth_access rfl, Expr.targetDepth_index]
      omega
  | @call n ks s e ls args _ _ ih iha =>
    obtain ⟨hd, ht, -⟩ := ih
    obtain ⟨had, hae⟩ := iha
    refine ⟨?_, ?_, ?_⟩
    · rw [Expr.depth]
      omega
    · rw [Expr.targetDepth_call]
      omega
    · rw [Expr.evalDepth_access rfl, Expr.targetDepth_call]
      omega
  | @atom n k e ha =>
    obtain ⟨hd, he⟩ := ha.depth_eq
    exact ⟨hd ▸ primaryBound_pos c n, he ▸ primaryBound_pos 1 n⟩
  | group _ ih =>
    obtain ⟨-, hd, he⟩ := ih
    exact ⟨Nat.le_of_lt hd, Nat.le_of_lt he⟩
  | array _ ih =>
    obtain ⟨hd, he⟩ := ih
    constructor
    · rw [Expr.depth]
      omega
    · rw [Expr.evalDepth]
      omega
  | dictionary _ ih =>
    obtain ⟨hd, he⟩ := ih
    constructor
    · rw [Expr.depth]
      omega
    · rw [Expr.evalDepth]
      omega
  | @noItems n =>
    constructor
    · rw [Expr.depthOfList]
      exact primaryBound_pos c n
    · rw [Expr.evalDepthOfList]
      exact primaryBound_pos 1 n
  | lastItem _ ih =>
    obtain ⟨-, hd, he⟩ := ih
    constructor
    · rw [Expr.depthOfList, Expr.depthOfList]
      omega
    · rw [Expr.evalDepthOfList, Expr.evalDepthOfList]
      omega
  | moreItems _ _ _ ih ihs =>
    obtain ⟨-, hd, he⟩ := ih
    obtain ⟨hds, hes⟩ := ihs
    constructor
    · rw [Expr.depthOfList]
      omega
    · rw [Expr.evalDepthOfList]
      omega
  | @noEntries n =>
    constructor
    · rw [Expr.depthOfPairs]
      exact primaryBound_pos c n
    · rw [Expr.evalDepthOfPairs]
      exact primaryBound_pos 1 n
  | lastEntry _ _ ihk ihv =>
    obtain ⟨-, hkd, hke⟩ := ihk
    obtain ⟨-, hvd, hve⟩ := ihv
    constructor
    · rw [Expr.depthOfPairs, Expr.depthOfPairs]
      omega
    · rw [Expr.evalDepthOfPairs, Expr.evalDepthOfPairs]
      omega
  | moreEntries _ _ _ _ ihk ihv ihs =>
    obtain ⟨-, hkd, hke⟩ := ihk
    obtain ⟨-, hvd, hve⟩ := ihv
    obtain ⟨hds, hes⟩ := ihs
    constructor
    · rw [Expr.depthOfPairs]
      omega
    · rw [Expr.evalDepthOfPairs]
      omega

/-! ## texts -/

theorem derives_of_parse {o : ParseOptions} {s : String} {e : Expr} (h : parse o s = .ok e) :
    ∃ ks, Derives o.maxChainLength o.maxNestingDepth ks (.expression e) := by
  rw [parse] at h
  split at h
  · cases h
  · split at h
    · cases h
    · next he =>
      cases h
      obtain ⟨rest, hr, -⟩ := Parser.whole_eq_ok.1 he
      obtain ⟨used, -, hd⟩ :=
        Parser.expression_sound _ _ 0 o.maxNestingDepth e rest (Nat.zero_add _) hr
      exact ⟨_, hd⟩

theorem parse_shallow {o : ParseOptions} {s : String} {e : Expr} (h : parse o s = .ok e) :
    1 ≤ o.maxNestingDepth ∧
      e.depth ≤ o.maxNestingDepth * (7 * o.maxChainLength + 2) - 1 ∧
      e.evalDepth ≤ 9 * o.maxNestingDepth - 1 ∧
      ∀ (ev : Evaluator) (c : Context) (beyond : EvalM Value),
        ev.evalWithin c beyond (9 * o.maxNestingDepth - 1) e = ev.eval c e := by
  obtain ⟨ks, hd⟩ := derives_of_parse h
  obtain ⟨hn, hdepth, heval⟩ := hd.shallow
  rw [primaryBound_of_pos _ hn] at hdepth heval
  have he : e.evalDepth ≤ 9 * o.maxNestingDepth - 1 := by omega
  exact ⟨hn, Nat.le_sub_one_of_lt hdepth, he, fun ev c beyond => ev.evalWithin_eq c beyond he⟩

/-- one operator of every level, each inside the one before, and a trailer: as deep as it gets with
one level of nesting and runs of one link -/
theorem parse_shallow_levels :
    let s := "a or b and c == d < e + f * g.h"
    let e : Expr := .binary (.var "a") .or (.binary (.var "b") .and (.binary (.var "c") .equal
      (.binary (.var "d") .lessThan (.binary (.var "e") .add (.binary (.var "f") .multiply
        (.member (.var "g") "h"))))))
    parse ⟨false, 1, 1⟩ s = .ok e ∧ e.depth = 1 * (7 * 1 + 2) - 1 ∧ e.evalDepth = 9 * 1 - 1 ∧
      e.depth ≤ 1 * (7 * 1 + 2) - 1 ∧ e.evalDepth ≤ 9 * 1 - 1 := by
  intro s e
  let ts : List Token := [⟨.identifier "a", ⟨0, 1⟩⟩, ⟨.operator .or, ⟨2, 4⟩⟩,
    ⟨.identifier "b", ⟨5, 6⟩⟩, ⟨.operator .and, ⟨7, 10⟩⟩, ⟨.identifier "c", ⟨11, 12⟩⟩,
    ⟨.operator .equal, ⟨13, 15⟩⟩, ⟨.identifier "d", ⟨16, 17⟩⟩, ⟨.operator .lessThan, ⟨18, 19⟩⟩,
    ⟨.identifier "e", ⟨20, 21⟩⟩, ⟨.operator .add, ⟨22, 23⟩⟩, ⟨.identifier "f", ⟨24, 25⟩⟩,
    ⟨.operator .multiply, ⟨26, 27⟩⟩, ⟨.identifier "g", ⟨28, 29⟩⟩, ⟨.dot, ⟨29, 30⟩⟩,
    ⟨.identifier "h", ⟨30, 31⟩⟩]
  have htok : (tokenize false s).toOption = some (ts ++ [⟨.eof, ⟨31, 31⟩⟩]) := by decide +kernel
  have var (name : String) : Derives 1 0 [.identifier name] (.chain 0 (.var name)) :=
    .primary (.atom (.variable name))
  have link (name : String) (op : BinaryOp) {ks : List TokenKind} {s : Nat} {r : Expr}
      (hr : Derives 1 0 ks (.binary (op.precedence + 1) s r)) (hs : s ≤ 1) :
      Derives 1 0 (.identifier name :: .operator op :: ks)
        (.binary op.precedence 1 (.binary (.var name) op r)) := by
    have hl : Derives 1 0 [.identifier name] (.binary 7 0 (.var name)) :=
      .operand (.chain (var name) (Nat.zero_le 1))
    exact .link op rfl (hl.lower (Nat.le_succ_of_le op.precedence_le)) hr hs
  have hd : Derives 1 1 (ts.map Token.kind) (.expression e) := by
    have h6 := link "f" .multiply (.operand (.chain (.member "h" (var "g")) (Nat.le_refl 1)))
      (Nat.zero_le 1)
    have h4 := link "d" .lessThan (link "e" .add h6 (Nat.le_refl 1)) (Nat.le_refl 1)
    have h2 := link "b" .and (link "c" .equal h4 (Nat.le_refl 1)) (Nat.le_refl 1)
    exact .expression (.plain (link "a" .or h2 (Nat.le_refl 1)) (Nat.le_refl 1))
  have h : parse ⟨false, 1, 1⟩ s = .ok e := by
    rw [parse]
    cases hts : tokenize false s with
    | error x =>
      rw [hts] at htok
      cases htok
    | ok us =>
      rw [hts] at htok
      cases htok
      dsimp only
      rw [hd.parseTokens_eq (o := ⟨false, 1, 1⟩) rfl]
  have hdepth : e.depth = 1 * (7 * 1 + 2) - 1 := by decide
  have heval : e.evalDepth = 9 * 1 - 1 := by
    have operand (name : String) : (Expr.var name).operandDepth = 1 := by
      simp [Expr.operandDepth, Expr.operatorSpine, Expr.depthOfOperands, Expr.evalDepth]
    have member : (Expr.member (.var "g") "h").evalDepth = 2 := by
      simp [Expr.evalDepth, Expr.accessSpine, Expr.depthOfLinks]
    simp only [e, Expr.evalDepth_binary, operand, member]
    rfl
  obtain ⟨-, hd, he, -⟩ := parse_shallow h
  exact ⟨h, hdepth, heval, hd, he⟩

end ExprLang
