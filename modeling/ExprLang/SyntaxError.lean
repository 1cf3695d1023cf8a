import ExprLang.Diagnostic

/-!
# Errors of the expression text

* `LexFault`, `LexError`   why a text has no tokens, and where;
* `ParseError`             why a list of tokens is no expression, and where;
* `SyntaxError`            either of them, with its message, its code and its diagnostic.

A message ends with the byte position; the diagnostic shows the place instead.
-/

namespace ExprLang

/-- what is wrong with a text that cannot be cut into tokens -/
inductive LexFault where
  /-- a string literal without a closing quote -/
  | unterminatedString
  /-- a backslash that starts no escape, followed by `sequence` -/
  | invalidEscape (sequence : String)
  /-- a numeric literal that runs into a name or is out of range -/
  | invalidNumber (literal : String)
  /-- a lone `=` where only `==` is a comparison -/
  | singleEqualSign
  /-- a character that starts no token -/
  | unexpectedCharacter (c : Char)
deriving DecidableEq, Repr

def LexFault.message : LexFault → String
  | .unterminatedString => "unterminated string literal"
  | .invalidEscape sequence => "invalid escape sequence '\\" ++ sequence ++ "'"
  | .invalidNumber literal => "invalid numeric literal '" ++ literal ++ "'"
  | .singleEqualSign => "unexpected '=' (use '==' for comparison)"
  | .unexpectedCharacter c => "unexpected character '" ++ c.toString ++ "'"

/-- a fault at a byte position -/
structure LexError where
  position : Nat
  fault : LexFault
deriving DecidableEq, Repr

inductive ParseError where
  /-- the token at `position` does not fit -/
  | unexpectedToken (position : Nat) (expected found : String)
  /-- the nesting limit is crossed at `position` -/
  | nestingTooDeep (position limit : Nat)
  /-- the limit on the links of one chain is crossed at `position` -/
  | chainTooLong (position limit : Nat)
deriving DecidableEq, Repr

namespace ParseError

def position : ParseError → Nat
  | .unexpectedToken p _ _ => p
  | .nestingTooDeep p _ => p
  | .chainTooLong p _ => p

/-- what is wrong, without the position -/
def message : ParseError → String
  | .unexpectedToken _ expected found => "expected " ++ expected ++ ", found " ++ found
  | .nestingTooDeep _ limit => "expression nesting exceeds the limit of " ++ toString limit
  | .chainTooLong _ limit =>
    "expression chain exceeds the limit of " ++ toString limit ++ " links"

end ParseError

inductive SyntaxError where
  | lex (error : LexError)
  | parse (error : ParseError)
deriving DecidableEq, Repr

namespace SyntaxError

def position : SyntaxError → Nat
  | .lex e => e.position
  | .parse e => e.position

/-- what is wrong, without the position -/
def reason : SyntaxError → String
  | .lex e => e.fault.message
  | .parse e => e.message

/-- which stage failed, what is wrong and where -/
def message (e : SyntaxError) : String :=
  (match e with
    | .lex _ => "Lex error: "
    | .parse _ => "Parse error: ") ++
  e.reason ++ " at position " ++ toString e.position

/-- the category of the error -/
def code : SyntaxError → String
  | .lex _ => "EXPR:LEX"
  | .parse (.unexpectedToken ..) => "EXPR:PARSE"
  | .parse (.nestingTooDeep ..) => "EXPR:NESTING"
  | .parse (.chainTooLong ..) => "EXPR:CHAIN"

/-- the diagnostic of the error in the source text -/
def render (e : SyntaxError) (source : String) : String :=
  Diagnostic.render ⟨source.toList, e.position, e.reason.toList⟩

end SyntaxError

end ExprLang
