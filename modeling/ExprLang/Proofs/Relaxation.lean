import Mathlib
import ExprLang.Engine
import ExprLang.Proofs.Relaxation.Comparing
import ExprLang.Proofs.Relaxation.Reading
import ExprLang.Proofs.Semantics.Folding
import ExprLang.Proofs.Semantics.Invariant

/-!
# Relaxed engines

* `EvalM.Below`                     `Below` for evaluations, with the requests to the host;
* `EngineConfig.Under c c'`         the engine options `c'` allow at least as much as `c`; their group
                                    separators may be any;
* `ExpressionError.Lifted c c'`     the errors of `c` that `c'` lifts.

`Engine.run_relaxed`: what an engine answers is answered by every engine that allows more, with the
same requests to the host, unless the answer is an error that is lifted.
-/

set_option linter.unusedSectionVars false

namespace ExprLang

/-! ## evaluations -/

namespace EvalM

def Below {α : Type} (lifted : EvalError → Prop) (x y : EvalM α) : Prop :=
  ∀ earlier, (∃ e, (x.run.run earlier).1 = .error e ∧ lifted e) ∨
    y.run.run earlier = x.run.run earlier

namespace Below

variable {α β : Type} {lifted : EvalError → Prop} {x y : EvalM α}

theorem refl (x : EvalM α) : Below lifted x x := fun _ => .inr rfl

theorem bind {f g : α → EvalM β} (h : Below lifted x y) (hf : ∀ a, Below lifted (f a) (g a)) :
    Below lifted (x >>= f) (y >>= g) := by
  intro earlier
  rw [run_bind, run_bind]
  rcases h earlier with ⟨e, he, hl⟩ | h
  · left
    rcases hx : x.run.run earlier with ⟨r, requests⟩
    rw [hx] at he
    cases he
    exact ⟨e, rfl, hl⟩
  · rw [h]
    rcases x.run.run earlier with ⟨e | a, requests⟩
    · exact .inr rfl
    · exact hf a requests

theorem ofExcept {r r' : Except EvalError α} (h : ExprLang.Below lifted r r') :
    Below lifted (.ofExcept r) (.ofExcept r') := by
  intro earlier
  rcases h with ⟨e, rfl, hl⟩ | rfl
  · exact .inl ⟨e, rfl, hl⟩
  · exact .inr rfl

end Below

end EvalM

/-! ## expressions -/

namespace Evaluator

variable {o o' : ComparerOptions} (h : o.Under o') (n : Normalizer) (host : Host) (c : Context)
include h

theorem operate_below (op : BinaryOp) (v : Value) {x y : EvalM Value}
    (hx : EvalM.Below (EvalError.Lifted o o') x y) :
    EvalM.Below (EvalError.Lifted o o') (operate ⟨⟨o, n⟩, host⟩ op v x)
      (operate ⟨⟨o', n⟩, host⟩ op v y) := by
  cases op with
  | and =>
    rw [operate, operate]
    split
    · exact hx.bind fun _ => .refl _
    · exact .refl _
  | or =>
    rw [operate, operate]
    split
    · exact .refl _
    · exact hx.bind fun _ => .refl _
  | _ => exact hx.bind fun r => .ofExcept (BinaryOp.apply_below h n _ v r)

theorem denoteAll_below {es : List Expr} (hes : ∀ e ∈ es, EvalM.Below (EvalError.Lifted o o')
      (denote ⟨⟨o, n⟩, host⟩ c e) (denote ⟨⟨o', n⟩, host⟩ c e)) :
    EvalM.Below (EvalError.Lifted o o') (denoteAll ⟨⟨o, n⟩, host⟩ c es)
      (denoteAll ⟨⟨o', n⟩, host⟩ c es) := by
  induction es with
  | nil =>
    rw [denoteAll, denoteAll]
    exact .refl _
  | cons e es ih =>
    rw [denoteAll, denoteAll]
    refine (hes e (List.mem_cons_self ..)).bind fun v => ?_
    exact (ih fun e he => hes e (List.mem_cons_of_mem _ he)).bind fun _ => .refl _

theorem denoteEntries_below {ps : List (Expr × Expr)} (before : Value.Entries)
    (hps : ∀ p ∈ ps, EvalM.Below (EvalError.Lifted o o')
        (denote ⟨⟨o, n⟩, host⟩ c p.1) (denote ⟨⟨o', n⟩, host⟩ c p.1) ∧
      EvalM.Below (EvalError.Lifted o o')
        (denote ⟨⟨o, n⟩, host⟩ c p.2) (denote ⟨⟨o', n⟩, host⟩ c p.2)) :
    EvalM.Below (EvalError.Lifted o o') (denoteEntries ⟨⟨o, n⟩, host⟩ c before ps)
      (denoteEntries ⟨⟨o', n⟩, host⟩ c before ps) := by
  induction ps generalizing before with
  | nil =>
    rw [denoteEntries, denoteEntries]
    exact .refl _
  | cons p ps ih =>
    obtain ⟨key, value⟩ := p
    obtain ⟨hk, hv⟩ := hps (key, value) (List.mem_cons_self ..)
    rw [denoteEntries, denoteEntries]
    refine hk.bind fun k => hv.bind fun v => ?_
    have hrest := ih (before ++ [(k, v)]) fun p hp => hps p (List.mem_cons_of_mem _ hp)
    dsimp only
    split
    · exact (EvalM.Below.refl _).bind fun _ => hrest
    · exact hrest

theorem denote_below (e : Expr) :
    EvalM.Below (EvalError.Lifted o o') (denote ⟨⟨o, n⟩, host⟩ c e)
      (denote ⟨⟨o', n⟩, host⟩ c e) := by
  induction e with
  | constant v =>
    rw [denote, denote]
    exact .refl _
  | var name =>
    rw [denote, denote]
    exact .refl _
  | unary op e ih =>
    rw [denote, denote]
    exact ih.bind fun _ => .refl _
  | binary l op r ihl ihr =>
    rw [denote, denote]
    exact ihl.bind fun v => operate_below h n host op v ihr
  | conditional q t f ihq iht ihf =>
    rw [denote, denote]
    refine ihq.bind fun v => ?_
    split
    · exact iht
    · exact ihf
  | member t name ih =>
    rw [denote, denote]
    exact ih.bind fun _ => .refl _
  | index t key iht ihk =>
    rw [denote, denote]
    exact iht.bind fun _ => ihk.bind fun _ => .refl _
  | method t name args ih hargs =>
    rw [denote, denote]
    exact ih.bind fun _ => (denoteAll_below h n host c hargs).bind fun _ => .refl _
  | call t args hm ih hargs =>
    rw [denote.eq_9 _ _ _ _ hm, denote.eq_9 _ _ _ _ hm]
    exact ih.bind fun _ => (denoteAll_below h n host c hargs).bind fun _ => .refl _
  | array es hes =>
    rw [denote, denote]
    exact (denoteAll_below h n host c hes).bind fun _ => .refl _
  | dictionary ps hps =>
    rw [denote, denote]
    exact (denoteEntries_below h n host c [] hps).bind fun _ => .refl _

end Evaluator

/-! ## engines -/

structure EngineConfig.Under (c c' : EngineConfig) : Prop where
  single : c.allowSingleEqualSign = true → c'.allowSingleEqualSign = true
  suppress : c.suppressComparisonErrors = true → c'.suppressComparisonErrors = true
  nesting : c.maxNestingDepth ≤ c'.maxNestingDepth
  chain : c.maxChainLength ≤ c'.maxChainLength
  nullComparison : c.nullComparison = c'.nullComparison
  decimalSeparator : c.numberFormat.decimalSeparator = c'.numberFormat.decimalSeparator

def ExpressionError.Lifted (c c' : EngineConfig) : ExpressionError → Prop
  | .badSyntax e => e.Lifted c.parseOptions c'.parseOptions
  | .badEvaluation e => e.Lifted c.comparerOptions c'.comparerOptions

namespace EngineConfig

variable {c c' : EngineConfig}

theorem Under.parseOptions (h : c.Under c') : c.parseOptions.Under c'.parseOptions :=
  ⟨h.single, h.nesting, h.chain⟩

theorem Under.comparerOptions (h : c.Under c') : c.comparerOptions.Under c'.comparerOptions :=
  ⟨h.nullComparison, h.decimalSeparator, h.suppress⟩

/-- the options with another group separator -/
def withGroup (c : EngineConfig) (separator : Option Char) : EngineConfig :=
  { c with numberFormat := { c.numberFormat with groupSeparator := separator } }

theorem under_withGroup (c : EngineConfig) (separator : Option Char) :
    c.Under (c.withGroup separator) :=
  ⟨fun h => h, fun h => h, Nat.le_refl _, Nat.le_refl _, rfl, rfl⟩

/-- a group separator lifts nothing -/
theorem not_lifted_withGroup (c : EngineConfig) (separator : Option Char) (e : ExpressionError) :
    ¬ e.Lifted c (c.withGroup separator) := by
  intro h
  cases e with
  | badSyntax e =>
    rcases e with e | ⟨p, x, f⟩ | ⟨p, n⟩ | ⟨p, n⟩
    · exact h.2 rfl
    · exact h
    · exact Nat.lt_irrefl _ h
    · exact Nat.lt_irrefl _ h
  | badEvaluation e =>
    cases e with
    | comparison e => exact h rfl
    | _ => exact h

end EngineConfig

namespace Engine

variable {c c' : EngineConfig}

theorem run_below (h : c.Under c') (n : Normalizer) (host : Host) (context : Context)
    (text : String) (earlier : List Request) :
    (∃ e, (run ⟨c, n, host⟩ context text earlier).1 = .error e ∧ e.Lifted c c') ∨
      run ⟨c', n, host⟩ context text earlier = run ⟨c, n, host⟩ context text earlier := by
  rw [run, run, parse, parse, tree, tree]
  rcases parse_below h.parseOptions (Text.trim text) with ⟨e, he, hl⟩ | hp
  · rw [he]
    exact .inl ⟨_, rfl, hl⟩
  · rw [hp]
    cases ExprLang.parse c.parseOptions (Text.trim text) with
    | error e => exact .inr rfl
    | ok e =>
      show (∃ x, (evaluate ⟨c, n, host⟩ context e earlier).1 = .error x ∧ x.Lifted c c') ∨
        evaluate ⟨c', n, host⟩ context e earlier = evaluate ⟨c, n, host⟩ context e earlier
      rw [evaluate, evaluate, Evaluator.eval_eq_denote, Evaluator.eval_eq_denote]
      rcases Evaluator.denote_below h.comparerOptions n host context e earlier with
        ⟨x, hx, hl⟩ | hv
      · refine .inl ⟨.badEvaluation x, ?_, hl⟩
        show Except.mapError ExpressionError.badEvaluation _ = _
        exact congrArg (Except.mapError ExpressionError.badEvaluation) hx
      · refine .inr ?_
        rw [evaluator, evaluator, hv]

theorem run_relaxed (h : c.Under c') (n : Normalizer) (host : Host) (context : Context)
    (text : String) (earlier : List Request) :
    ((∃ e, (run ⟨c, n, host⟩ context text earlier).1 = .error e ∧ e.Lifted c c') ∨
      run ⟨c', n, host⟩ context text earlier = run ⟨c, n, host⟩ context text earlier) ∧
    ∀ separator, run ⟨c.withGroup separator, n, host⟩ context text earlier =
      run ⟨c, n, host⟩ context text earlier := by
  refine ⟨run_below h n host context text earlier, fun separator => ?_⟩
  rcases run_below (c.under_withGroup separator) n host context text earlier with ⟨e, -, he⟩ | hr
  · exact absurd he (c.not_lifted_withGroup separator e)
  · exact hr

/-- a lone `=` is lifted; a sum of null has the same error as before -/
theorem run_relaxed_sign :
    let c : EngineConfig := {}
    let c' : EngineConfig := { allowSingleEqualSign := true, maxChainLength := 9000 }
    let host := Host.standard fun _ => none
    c.Under c' ∧
      (run ⟨c, .unwrapping, host⟩ .empty "a = null" []).1 =
        .error (.badSyntax (.lex ⟨2, .singleEqualSign⟩)) ∧
      (run ⟨c', .unwrapping, host⟩ .empty "a = null" []).1 = .ok (.boolean true) ∧
      (run ⟨c', .unwrapping, host⟩ .empty "a + null" []).1 =
        .error (.badEvaluation (.binaryOperands .add .null .null)) := by
  intro c c' host
  have h : c.Under c' := ⟨nofun, nofun, by decide, by decide, rfl, rfl⟩
  refine ⟨h, by cbv, by cbv, ?_⟩
  have hr : (run ⟨c, .unwrapping, host⟩ .empty "a + null" []).1 =
      .error (.badEvaluation (.binaryOperands .add .null .null)) := by cbv
  rcases (run_relaxed h .unwrapping host .empty "a + null" []).1 with ⟨e, he, hl⟩ | hr'
  · rw [hr] at he
    cases he
    exact absurd hl id
  · rw [hr', hr]

end Engine

end ExprLang
