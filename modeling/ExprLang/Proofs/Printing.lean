import ExprLang.Expr
import ExprLang.Proofs.Grammar
import ExprLang.Token.Scan
import ExprLang.Value.Display

/-!
# Writing expressions

    operand, target, branch    (a)          operators   (a)+(b), -(a), (a)?(b):(c)
    member, position, call     (a).m, (a)[b], (a)(b,c)
    array, dictionary          new[]{a,b}, new dictionary{{a,b},{c,d}}

* `Value.written`    a constant: texts between quotes, all else as it is shown;
* `Expr.written`     an expression, and `Expr.print` the same as a string;
* `Expr.kinds`       the tokens that are written;
* `Expr.Printable`   constants have literals, and names are identifiers.

The two functions go through a tree in the same way, so that what one writes can be compared with
the tokens of the other, piece by piece.
-/

namespace ExprLang

/-! ## texts -/

/-- a text with a backslash before every quote and every backslash -/
def escaped : List Char → List Char
  | [] => []
  | c :: cs => if c = '"' ∨ c = '\\' then '\\' :: c :: escaped cs else c :: escaped cs

def Value.written : Value → List Char
  | .null => "null".toList
  | .text s => '"' :: (escaped s.toList ++ ['"'])
  | v => v.display.toList

def grouped (cs : List Char) : List Char := '(' :: (cs ++ [')'])

namespace Expr

mutual

def written : Expr → List Char
  | .constant v => v.written
  | .var name => name.toList
  | .unary op e => op.symbol.toList ++ grouped e.written
  | .binary l op r => grouped l.written ++ (op.symbol.toList ++ grouped r.written)
  | .conditional q t f =>
    grouped q.written ++ '?' :: (grouped t.written ++ ':' :: grouped f.written)
  | .member t name => grouped t.written ++ '.' :: name.toList
  | .index t key => grouped t.written ++ '[' :: (key.written ++ [']'])
  | .call t args => grouped t.written ++ '(' :: (writtenItems args ++ [')'])
  | .array es => "new".toList ++ '[' :: ']' :: '{' :: (writtenItems es ++ ['}'])
  | .dictionary ps =>
    "new".toList ++ ' ' :: ("dictionary".toList ++ '{' :: (writtenEntries ps ++ ['}']))

/-- the expressions with commas between them -/
def writtenItems : List Expr → List Char
  | [] => []
  | [e] => e.written
  | e :: f :: es => e.written ++ ',' :: writtenItems (f :: es)

/-- the entries with commas between them -/
def writtenEntries : List (Expr × Expr) → List Char
  | [] => []
  | [(k, v)] => '{' :: (k.written ++ ',' :: (v.written ++ ['}']))
  | (k, v) :: p :: ps =>
    '{' :: (k.written ++ ',' :: (v.written ++ '}' :: ',' :: writtenEntries (p :: ps)))

end

def print (e : Expr) : String := String.ofList e.written

end Expr

/-! ## tokens -/

/-- the token of a literal -/
def Value.token : Value → TokenKind
  | .boolean b => .boolean b
  | .number a => .number a
  | .text s => .string s
  | _ => .null

def groupedKinds (ks : List TokenKind) : List TokenKind := .leftParen :: (ks ++ [.rightParen])

namespace Expr

mutual

def kinds : Expr → List TokenKind
  | .constant v => [v.token]
  | .var name => [.identifier name]
  | .unary op e => op.kind :: groupedKinds e.kinds
  | .binary l op r => groupedKinds l.kinds ++ .operator op :: groupedKinds r.kinds
  | .conditional q t f =>
    groupedKinds q.kinds ++ .question :: (groupedKinds t.kinds ++ .colon :: groupedKinds f.kinds)
  | .member t name => groupedKinds t.kinds ++ [.dot, .identifier name]
  | .index t key => groupedKinds t.kinds ++ .leftBracket :: (key.kinds ++ [.rightBracket])
  | .call t args => groupedKinds t.kinds ++ .leftParen :: (kindsOfItems args ++ [.rightParen])
  | .array es =>
    .new :: .leftBracket :: .rightBracket :: .leftBrace :: (kindsOfItems es ++ [.rightBrace])
  | .dictionary ps => .new :: .dictionary :: .leftBrace :: (kindsOfEntries ps ++ [.rightBrace])

def kindsOfItems : List Expr → List TokenKind
  | [] => []
  | [e] => e.kinds
  | e :: f :: es => e.kinds ++ .comma :: kindsOfItems (f :: es)

def kindsOfEntries : List (Expr × Expr) → List TokenKind
  | [] => []
  | [(k, v)] => .leftBrace :: (k.kinds ++ .comma :: (v.kinds ++ [.rightBrace]))
  | (k, v) :: p :: ps =>
    .leftBrace :: (k.kinds ++ .comma :: (v.kinds ++ .rightBrace :: .comma :: kindsOfEntries (p :: ps)))

end

end Expr

/-! ## what can be written -/

/-- can the value be written as one token -/
def Value.IsLiteral : Value → Prop
  | .null | .boolean _ | .text _ => True
  | .number a => a.negative = false
  | _ => False

/-- is the text a name, and no keyword -/
def IsIdentifier (name : String) : Prop :=
  (∃ c cs, name.toList = c :: cs ∧ isNameStart c = true ∧ ∀ d ∈ cs, isNameChar d = true) ∧
    name ∉ keywords.map (·.1)

namespace Expr

inductive Printable : Expr → Prop where
  | constant {v : Value} : v.IsLiteral → Printable (.constant v)
  | var {name : String} : IsIdentifier name → Printable (.var name)
  | unary {op : UnaryOp} {e : Expr} : Printable e → Printable (.unary op e)
  | binary {l : Expr} {op : BinaryOp} {r : Expr} : Printable l → Printable r →
      Printable (.binary l op r)
  | conditional {q t f : Expr} : Printable q → Printable t → Printable f →
      Printable (.conditional q t f)
  | member {t : Expr} {name : String} : Printable t → IsIdentifier name →
      Printable (.member t name)
  | index {t key : Expr} : Printable t → Printable key → Printable (.index t key)
  | call {t : Expr} {args : List Expr} : Printable t → (∀ e ∈ args, Printable e) →
      Printable (.call t args)
  | array {es : List Expr} : (∀ e ∈ es, Printable e) → Printable (.array es)
  | dictionary {ps : List (Expr × Expr)} : (∀ p ∈ ps, Printable p.1) →
      (∀ p ∈ ps, Printable p.2) → Printable (.dictionary ps)

end Expr

end ExprLang
