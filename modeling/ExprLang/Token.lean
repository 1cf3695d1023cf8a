import ExprLang.Operator
import ExprLang.Span
import ExprLang.Decimal.Basic

/-!
# Tokens

* `TokenKind`              what a token is, with its content;
* `Token`                  a token and its span;
* `TokenKind.toText`       how a token is shown in messages;
* `TokenKind.precedence?`  the precedence of a binary operator.

The last token of a text is `eof`.
-/

namespace ExprLang

inductive TokenKind where
  | number (value : Decimal)
  /-- a string literal, its escapes resolved -/
  | string (content : String)
  | boolean (value : Bool)
  | null
  | identifier (name : String)
  /-- a binary operator; `subtract` is the minus sign in front of an operand as well -/
  | operator (op : BinaryOp)
  | not
  | leftParen
  | rightParen
  | leftBracket
  | rightBracket
  | leftBrace
  | rightBrace
  | dot
  | comma
  | colon
  | question
  | new
  | dictionary
  | eof
deriving DecidableEq, Repr

namespace TokenKind

def toText : TokenKind → String
  | number a => a.toText
  | string s => "\"" ++ s ++ "\""
  | boolean b => if b then "true" else "false"
  | null => "null"
  | identifier name => name
  | operator op => op.symbol
  | not => "!"
  | leftParen => "("
  | rightParen => ")"
  | leftBracket => "["
  | rightBracket => "]"
  | leftBrace => "\x7b"
  | rightBrace => "\x7d"
  | dot => "."
  | comma => ","
  | colon => ":"
  | question => "?"
  | new => "new"
  | dictionary => "dictionary"
  | eof => "end of input"

def precedence? : TokenKind → Option Nat
  | operator op => some op.precedence
  | _ => none

end TokenKind

structure Token where
  kind : TokenKind
  span : Span
deriving DecidableEq, Repr

/-- the byte offset a token starts at -/
def Token.position (t : Token) : Nat := t.span.start.toNat

end ExprLang
