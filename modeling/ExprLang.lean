import ExprLang.Text.Blank
import ExprLang.Text.Letter
import ExprLang.Text.Numeral
import ExprLang.Text.Case
import ExprLang.Text.Digits
import ExprLang.Text.Search
import ExprLang.Text.Lines
import ExprLang.Span
import ExprLang.SyntaxError
import ExprLang.Decimal.Read
import ExprLang.Decimal.Arithmetic
import ExprLang.Decimal.Division
import ExprLang.Decimal.Remainder
import ExprLang.NumberFormat
import ExprLang.Time.DurationText
import ExprLang.Time.DateTime
import ExprLang.Time.DateTimeText
import ExprLang.Time.Pattern
import ExprLang.Value.Compare
import ExprLang.Expr.Parse
import ExprLang.Member.Builtin
import ExprLang.Host.Script
import ExprLang.Context
import ExprLang.Eval.Operate
import ExprLang.Eval
import ExprLang.Session
import ExprLang.Setting
import ExprLang.Proofs.Grammar
import ExprLang.Proofs.Grammar.Reading
import ExprLang.Proofs.Grammar.Soundness
import ExprLang.Proofs.Grammar.Completeness
import ExprLang.Proofs.Expr
import ExprLang.Proofs.Grammar.Exactness
import ExprLang.Proofs.Semantics
import ExprLang.Proofs.Semantics.Dependency
import ExprLang.Proofs.Session
import ExprLang.Proofs.Token.Coverage
import ExprLang.Proofs.Relaxation
import ExprLang.Proofs.Value.Antisymmetry
import ExprLang.Proofs.Printing.RoundTrip
import ExprLang.Proofs.Value.Symmetry
import ExprLang.Proofs.Decimal.Order
import ExprLang.Proofs.Value.Preorder
import ExprLang.Proofs.Value.Refinement
import ExprLang.Proofs.Value.Formatted
import ExprLang.Proofs.Printing.Number
import ExprLang.Proofs.Grammar.Bounds
import ExprLang.Proofs.Member
import ExprLang.Proofs.Semantics.Invariant
import ExprLang.Proofs.Semantics.Literal
import ExprLang.Proofs.Operator
import ExprLang.Proofs.Semantics.Keys
import ExprLang.Proofs.Value.Structural
import ExprLang.Proofs.Token.Literal
import ExprLang.Proofs.Grammar.Variables
import ExprLang.Proofs.Grammar.Unexpected
import ExprLang.Proofs.Spacing
import ExprLang.Proofs.Value.Undecided
import ExprLang.Proofs.Value.Exactness
import ExprLang.Proofs.Member.Mapping
import ExprLang.Proofs.Time.DurationText
import ExprLang.Proofs.Time.DateTimeText
import ExprLang.Proofs.Decimal.Exact
import ExprLang.Proofs.Member.Duration
import ExprLang.Proofs.Time.Action
import ExprLang.Proofs.Decimal.Rounding
import ExprLang.Proofs.Decimal.Whole
import ExprLang.Proofs.Semantics.Giving
import ExprLang.Proofs.Member.Position
import ExprLang.Proofs.Member.Interchange
import ExprLang.Proofs.Member.Search
import ExprLang.Proofs.Member.Amount
import ExprLang.Proofs.Diagnostic
