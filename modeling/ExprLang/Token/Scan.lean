import ExprLang.Token
import ExprLang.Token.Quoted
import ExprLang.Decimal.Read
import ExprLang.Text.Blank
import ExprLang.Text.Letter
import ExprLang.Text.Numeral

/-!
# Cutting a text into tokens

Blanks divide tokens and mean nothing else.  A token starts at the first character that is no blank
and is as long as possible.

* `symbols`       the operators and brackets, each before those that it starts with;
* `keywords`      the names that are no identifiers;
* `numberText`    the digits of a number: a point belongs to it only before a further digit;
* `lexeme`        the token at the start of a text;
* `tokenize`      all tokens of a text, the last one `eof`.
-/

namespace ExprLang

/-- may a name start with this character -/
def isNameStart (c : Char) : Bool := Text.isLetter c || c == '_'

/-- may a name go on with this character -/
def isNameChar (c : Char) : Bool := Text.isLetter c || Text.isNumeral c || c == '_'

def keywords : List (String × TokenKind) :=
  [("true", .boolean true), ("false", .boolean false), ("null", .null), ("and", .operator .and),
    ("or", .operator .or), ("not", .not), ("new", .new), ("dictionary", .dictionary)]

/-- the token of a name -/
def nameToken (name : String) : TokenKind := (keywords.lookup name).getD (.identifier name)

/-- the operators and brackets; one that starts with another stands before it.  A single `=` is one
of them only if `single` allows it. -/
def symbols (single : Bool) : List (List Char × TokenKind) :=
  [(['=', '=', '='], .operator .strictEqual), (['=', '='], .operator .equal)] ++
  (if single then [(['='], .operator .equal)] else []) ++
  [(['!', '=', '='], .operator .strictNotEqual), (['!', '='], .operator .notEqual), (['!'], .not),
    (['<', '='], .operator .lessEqual), (['<'], .operator .lessThan),
    (['>', '='], .operator .greaterEqual), (['>'], .operator .greaterThan),
    (['&', '&'], .operator .and), (['|', '|'], .operator .or),
    (['+'], .operator .add), (['-'], .operator .subtract), (['*'], .operator .multiply),
    (['/'], .operator .divide), (['%'], .operator .modulo),
    (['('], .leftParen), ([')'], .rightParen), (['['], .leftBracket), ([']'], .rightBracket),
    (['{'], .leftBrace), (['}'], .rightBrace), (['.'], .dot), ([','], .comma), ([':'], .colon),
    (['?'], .question)]

/-- the symbol at the start of a text -/
def symbol? (single : Bool) (cs : List Char) : Option (List Char × TokenKind) :=
  (symbols single).find? fun s => s.1.isPrefixOf cs

/-! ## numbers -/

def numberText (cs : List Char) : List Char :=
  let whole := cs.takeWhile Char.isDigit
  match cs.dropWhile Char.isDigit with
  | '.' :: rest =>
    let places := rest.takeWhile Char.isDigit
    if places.isEmpty then whole else whole ++ '.' :: places
  | _ => whole

/-- the number at the start of a text that starts with a digit, and its length -/
def number (offset : Nat) (cs : List Char) : Except LexError (Decimal × Nat) :=
  let text := numberText cs
  let tail := (cs.drop text.length).takeWhile isNameChar
  if tail.isEmpty then
    match Decimal.ofDigits? text with
    | some a => .ok (a, text.length)
    | none => .error ⟨offset, .invalidNumber (String.ofList text)⟩
  else .error ⟨offset, .invalidNumber (String.ofList (text ++ tail))⟩

/-! ## tokens -/

/-- the token of the text `c :: rest` at a byte offset, and how many characters of `rest` it takes;
`c` is no blank -/
def lexeme (single : Bool) (offset : Nat) (c : Char) (rest : List Char) :
    Except LexError (TokenKind × Nat) :=
  match symbol? single (c :: rest) with
  | some (text, kind) => .ok (kind, text.length - 1)
  | none =>
    if c = '=' then .error ⟨offset, .singleEqualSign⟩
    else if c = '"' then
      (Quoted.read offset rest).map fun (content, body) =>
        (.string (String.ofList content), body.length + 1)
    else if c.isDigit then
      (number offset (c :: rest)).map fun (a, length) => (.number a, length - 1)
    else if isNameStart c then
      let more := rest.takeWhile isNameChar
      .ok (nameToken (String.ofList (c :: more)), more.length)
    else .error ⟨offset, .unexpectedCharacter c⟩

/-- the tokens of a text that starts at a byte offset -/
def tokensFrom (single : Bool) (offset : Nat) : List Char → Except LexError (List Token)
  | [] => .ok [⟨.eof, .point offset⟩]
  | c :: rest =>
    if Text.isBlank c then tokensFrom single (offset + c.utf8Size) rest
    else
      match lexeme single offset c rest with
      | .error e => .error e
      | .ok (kind, n) =>
        let stop := offset + Text.byteLength (c :: rest.take n)
        (tokensFrom single stop (rest.drop n)).map (⟨kind, .ofOffsets offset stop⟩ :: ·)
termination_by cs => cs.length
decreasing_by
  · simp only [List.length_cons]; omega
  · simp only [List.length_cons, List.length_drop]; omega

def tokenize (single : Bool) (s : String) : Except LexError (List Token) :=
  tokensFrom single 0 s.toList

end ExprLang
