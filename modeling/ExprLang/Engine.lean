import ExprLang.Eval
import ExprLang.Expr.Parse
import ExprLang.Text.Blank

/-!
# Engines

An engine parses texts, without the blanks around them, and evaluates what they say.

* `EngineConfig`      the limits, the syntax options and how values are compared;
* `Expression`        a parsed text;
* `Engine.parse`      the expression of a text;
* `Engine.evaluate`   the value of an expression, and the requests to the host on the way;
* `Engine.run`        both.
-/

namespace ExprLang

structure EngineConfig where
  allowSingleEqualSign : Bool := false
  nullComparison : NullComparison := .minValue
  suppressComparisonErrors : Bool := false
  numberFormat : NumberFormat := {}
  maxNestingDepth : Nat := 256
  maxChainLength : Nat := 4096
deriving DecidableEq, Repr

namespace EngineConfig

def parseOptions (c : EngineConfig) : ParseOptions :=
  ⟨c.allowSingleEqualSign, c.maxNestingDepth, c.maxChainLength⟩

def comparerOptions (c : EngineConfig) : ComparerOptions :=
  ⟨c.nullComparison, c.suppressComparisonErrors, c.numberFormat⟩

end EngineConfig

structure Expression where
  source : String
  tree : Expr

structure Engine where
  config : EngineConfig := {}
  normalizer : Normalizer := .identity
  host : Host

namespace Engine

/-- a value or an error, and the requests to the host so far, the latest one first -/
abbrev Answer := Except ExpressionError Value × List Request

def evaluator (g : Engine) : Evaluator := ⟨⟨g.config.comparerOptions, g.normalizer⟩, g.host⟩

/-- the tree of a text that is trimmed already -/
def tree (g : Engine) (source : String) : Except SyntaxError Expr :=
  ExprLang.parse g.config.parseOptions source

def parse (g : Engine) (text : String) : Except SyntaxError Expression :=
  (g.tree (Text.trim text)).map fun e => ⟨Text.trim text, e⟩

def evaluate (g : Engine) (c : Context) (e : Expr) (earlier : List Request) : Answer :=
  let (r, requests) := (g.evaluator.eval c e).run.run earlier
  (r.mapError .badEvaluation, requests)

def run (g : Engine) (c : Context) (text : String) (earlier : List Request) : Answer :=
  match g.parse text with
  | .error e => (.error (.badSyntax e), earlier)
  | .ok expression => g.evaluate c expression.tree earlier

end Engine

end ExprLang
