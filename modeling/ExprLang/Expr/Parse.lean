import ExprLang.Expr
import ExprLang.Token.Scan

/-!
# From tokens to expressions

An expression is a ternary `c ? t : e`, or a chain of binary operators.  The operands of a binary
operator are unary expressions `-e`, `!e` and postfix chains: a primary followed by `.name`, `[key]`
and `(args)`.

Two limits are kept.  The nesting counts the whole expression, every inner expression (group, key,
argument, element, entry, branch) and every operand of a unary operator.  The chain length counts
the links of one run of binary operators at one level, or of one run of trailers.

* `ParseOptions`    the limits, and whether `=` is a comparison;
* `Parsed`          a result, with the tokens behind it, which are fewer than a bound;
* `Parser`          what the readers below depend on;
* `Parser.expression`, `ternary`, `binary`, `unary`, `chain`, `primary`   the levels of the grammar;
* `parseTokens`, `parse`   the expression of a list of tokens, of a text.
-/

namespace ExprLang

structure ParseOptions where
  allowSingleEqualSign : Bool := false
  maxNestingDepth : Nat := 256
  maxChainLength : Nat := 4096
deriving DecidableEq, Repr

structure Parsed (n : Nat) (α : Type) where
  value : α
  rest : List Token
  lt : rest.length < n

/-- the same result under a larger bound -/
def Parsed.weaken {m n : Nat} {α : Type} (p : Parsed m α) (h : m ≤ n) : Parsed n α :=
  ⟨p.value, p.rest, Nat.lt_of_lt_of_le p.lt h⟩

structure Parser where
  maxNesting : Nat
  maxChain : Nat
  stop : Nat

namespace Parser

/-- the position of the next token -/
def position (p : Parser) : List Token → Nat
  | [] => p.stop
  | t :: _ => t.position

/-- how the next token is named in a message -/
def found : List Token → String
  | [] => "end of input"
  | t :: _ => if t.kind = .eof then "end of input" else "'" ++ t.kind.toText ++ "'"

/-- nothing is left but the end -/
def isEnd : List Token → Bool
  | [] => true
  | t :: _ => t.kind = .eof

/-- the error that something else was expected -/
def unexpected (p : Parser) (ts : List Token) (expected : String) : ParseError :=
  .unexpectedToken (p.position ts) expected (found ts)

/-- the tokens behind the next one, if that is of the kind -/
def accept? (kind : TokenKind) : (ts : List Token) → Option (Parsed ts.length Unit)
  | [] => none
  | t :: rest => if t.kind = kind then some ⟨(), rest, Nat.lt_succ_self _⟩ else none

/-- the tokens behind the next one, which has to be of the kind -/
def expect (p : Parser) (kind : TokenKind) (expected : String) (ts : List Token) :
    Except ParseError (Parsed ts.length Unit) :=
  match accept? kind ts with
  | some r => .ok r
  | none => .error (p.unexpected ts expected)

/-- the identifier that has to follow a dot -/
def memberName (p : Parser) : (ts : List Token) → Except ParseError (Parsed ts.length String)
  | ⟨.identifier name, _⟩ :: rest => .ok ⟨name, rest, Nat.lt_succ_self _⟩
  | ts => .error (p.unexpected ts "member name after '.'")

/-- an error if one more level of nesting is too much -/
def enter (p : Parser) (depth : Nat) (ts : List Token) : Except ParseError Unit :=
  if p.maxNesting < depth + 1 then .error (.nestingTooDeep (p.position ts) p.maxNesting) else .ok ()

/-- an error if one more link of a chain is too much -/
def extend (p : Parser) (links : Nat) (ts : List Token) : Except ParseError Unit :=
  if p.maxChain < links + 1 then .error (.chainTooLong (p.position ts) p.maxChain) else .ok ()

/-- the operator of a unary expression -/
def unaryOp? : TokenKind → Option UnaryOp
  | .operator .subtract => some .negate
  | .not => some .not
  | _ => none

/-- the expression that a single token is -/
def atom? : TokenKind → Option Expr
  | .number a => some (.constant (.number a))
  | .string s => some (.constant (.text s))
  | .boolean b => some (.constant (.boolean b))
  | .null => some (.constant .null)
  | .identifier name => some (.var name)
  | _ => none

mutual

/-- an expression, one level below `depth` -/
def expression (p : Parser) (depth : Nat) (ts : List Token) :
    Except ParseError (Parsed ts.length Expr) := do
  p.enter depth ts
  p.ternary (depth + 1) ts
termination_by (ts.length, 6)

/-- a ternary or a run of binary operators -/
def ternary (p : Parser) (depth : Nat) (ts : List Token) :
    Except ParseError (Parsed ts.length Expr) := do
  let condition ← p.binary depth 1 ts
  have := condition.lt
  match accept? .question condition.rest with
  | none => return condition
  | some question =>
    have := question.lt
    let thenBranch ← p.expression depth question.rest
    have := thenBranch.lt
    let colon ← p.expect .colon "':' in conditional expression" thenBranch.rest
    have := colon.lt
    let elseBranch ← p.expression depth colon.rest
    have := elseBranch.lt
    return ⟨.conditional condition.value thenBranch.value elseBranch.value, elseBranch.rest,
      by omega⟩
termination_by (ts.length, 5)

/-- operands joined by operators of at least the precedence `least` -/
def binary (p : Parser) (depth least : Nat) (ts : List Token) :
    Except ParseError (Parsed ts.length Expr) := do
  let first ← p.unary depth ts
  have := first.lt
  let all ← p.links depth least 0 first.value first.rest
  return all.weaken this
termination_by (ts.length, 4)

/-- the further links of a run of binary operators of which `count` have been read as `left` -/
def links (p : Parser) (depth least count : Nat) (left : Expr) (ts : List Token) :
    Except ParseError (Parsed (ts.length + 1) Expr) :=
  match ts with
  | [] => .ok ⟨left, [], Nat.lt_succ_self _⟩
  | t :: rest =>
    match t.kind with
    | .operator op =>
      if op.precedence < least then .ok ⟨left, t :: rest, Nat.lt_succ_self _⟩
      else do
        p.extend count (t :: rest)
        let right ← p.binary depth (op.precedence + 1) rest
        have := right.lt
        let all ← p.links depth least (count + 1) (.binary left op right.value) right.rest
        return all.weaken (Nat.le_succ_of_le (Nat.le_succ_of_le this))
    | _ => .ok ⟨left, t :: rest, Nat.lt_succ_self _⟩
termination_by (ts.length, 0)

/-- a unary operator and its operand, or a postfix chain -/
def unary (p : Parser) (depth : Nat) (ts : List Token) :
    Except ParseError (Parsed ts.length Expr) :=
  match ts with
  | [] => p.chain depth []
  | t :: rest =>
    match unaryOp? t.kind with
    | none => p.chain depth (t :: rest)
    | some op => do
      p.enter depth rest
      let operand ← p.unary (depth + 1) rest
      have := operand.lt
      return ⟨.unary op operand.value, operand.rest, by simp only [List.length_cons]; omega⟩
termination_by (ts.length, 3)

/-- a primary with its trailers -/
def chain (p : Parser) (depth : Nat) (ts : List Token) :
    Except ParseError (Parsed ts.length Expr) := do
  let first ← p.primary depth ts
  have := first.lt
  let all ← p.trailers depth 0 first.value first.rest
  return all.weaken this
termination_by (ts.length, 2)

/-- the further trailers of a chain of which `count` have been read with the primary as `target` -/
def trailers (p : Parser) (depth count : Nat) (target : Expr) (ts : List Token) :
    Except ParseError (Parsed (ts.length + 1) Expr) :=
  match ts with
  | [] => .ok ⟨target, [], Nat.lt_succ_self _⟩
  | t :: rest =>
    match t.kind with
    | .dot => do
      p.extend count (t :: rest)
      let name ← p.memberName rest
      have := name.lt
      let all ← p.trailers depth (count + 1) (.member target name.value) name.rest
      return all.weaken (by simp only [List.length_cons]; omega)
    | .leftBracket => do
      p.extend count (t :: rest)
      let key ← p.expression depth rest
      have := key.lt
      let close ← p.expect .rightBracket "']'" key.rest
      have := close.lt
      let all ← p.trailers depth (count + 1) (.index target key.value) close.rest
      return all.weaken (by simp only [List.length_cons]; omega)
    | .leftParen => do
      p.extend count (t :: rest)
      let args ← p.items depth .rightParen "',' or ')'" rest
      have := args.lt
      let all ← p.trailers depth (count + 1) (.call target args.value) args.rest
      return all.weaken (by simp only [List.length_cons]; omega)
    | _ => .ok ⟨target, t :: rest, Nat.lt_succ_self _⟩
termination_by (ts.length, 0)

/-- a literal, a variable, a group or a collection -/
def primary (p : Parser) (depth : Nat) (ts : List Token) :
    Except ParseError (Parsed ts.length Expr) :=
  match ts with
  | [] => .error (p.unexpected [] "expression")
  | t :: rest =>
    match atom? t.kind with
    | some e => .ok ⟨e, rest, Nat.lt_succ_self _⟩
    | none =>
      match t.kind with
      | .leftParen => do
        let inner ← p.expression depth rest
        have := inner.lt
        let close ← p.expect .rightParen "')'" inner.rest
        have := close.lt
        return ⟨inner.value, close.rest, by simp only [List.length_cons]; omega⟩
      | .new => do
        let literal ← p.collection depth rest
        return literal.weaken (Nat.le_succ _)
      | _ => .error (p.unexpected (t :: rest) "expression")
termination_by (ts.length, 1)

/-- what follows `new`: the elements of an array, the entries of a dictionary -/
def collection (p : Parser) (depth : Nat) (ts : List Token) :
    Except ParseError (Parsed ts.length Expr) :=
  match ts with
  | [] => .error (p.unexpected [] "'[' or 'dictionary' after 'new'")
  | t :: rest =>
    match t.kind with
    | .leftBracket => do
      let close ← p.expect .rightBracket "']' after 'new['" rest
      have := close.lt
      let start ← p.expect .leftBrace "'\x7b' to start array elements" close.rest
      have := start.lt
      let elements ← p.items depth .rightBrace "',' or '\x7d'" start.rest
      have := elements.lt
      return ⟨.array elements.value, elements.rest, by simp only [List.length_cons]; omega⟩
    | .dictionary => do
      let start ← p.expect .leftBrace "'\x7b' to start dictionary entries" rest
      have := start.lt
      let pairs ← p.pairs depth start.rest
      have := pairs.lt
      return ⟨.dictionary pairs.value, pairs.rest, by simp only [List.length_cons]; omega⟩
    | _ => .error (p.unexpected (t :: rest) "'[' or 'dictionary' after 'new'")
termination_by (ts.length, 0)

/-- expressions divided by commas, up to the closing token; there may be none -/
def items (p : Parser) (depth : Nat) (close : TokenKind) (expected : String) (ts : List Token) :
    Except ParseError (Parsed ts.length (List Expr)) :=
  match accept? close ts with
  | some done => .ok ⟨[], done.rest, done.lt⟩
  | none => p.itemsFrom depth close expected ts
termination_by (ts.length, 8)

/-- at least one expression, further ones behind commas, up to the closing token -/
def itemsFrom (p : Parser) (depth : Nat) (close : TokenKind) (expected : String) (ts : List Token) :
    Except ParseError (Parsed ts.length (List Expr)) := do
  let item ← p.expression depth ts
  have := item.lt
  match accept? .comma item.rest with
  | some comma =>
    have := comma.lt
    let more ← p.itemsFrom depth close expected comma.rest
    have := more.lt
    return ⟨item.value :: more.value, more.rest, by omega⟩
  | none =>
    let done ← p.expect close expected item.rest
    have := done.lt
    return ⟨[item.value], done.rest, by omega⟩
termination_by (ts.length, 7)

/-- entries of a dictionary, up to the closing brace; there may be none -/
def pairs (p : Parser) (depth : Nat) (ts : List Token) :
    Except ParseError (Parsed ts.length (List (Expr × Expr))) :=
  match accept? .rightBrace ts with
  | some done => .ok ⟨[], done.rest, done.lt⟩
  | none => p.pairsFrom depth ts
termination_by (ts.length, 8)

/-- at least one entry, further ones behind commas, up to the closing brace -/
def pairsFrom (p : Parser) (depth : Nat) (ts : List Token) :
    Except ParseError (Parsed ts.length (List (Expr × Expr))) := do
  let start ← p.expect .leftBrace "'\x7b' to start a dictionary entry" ts
  have := start.lt
  let key ← p.expression depth start.rest
  have := key.lt
  let divider ← p.expect .comma "',' between key and value" key.rest
  have := divider.lt
  let value ← p.expression depth divider.rest
  have := value.lt
  let close ← p.expect .rightBrace "'\x7d' to close a dictionary entry" value.rest
  have := close.lt
  match accept? .comma close.rest with
  | some comma =>
    have := comma.lt
    let more ← p.pairsFrom depth comma.rest
    have := more.lt
    return ⟨(key.value, value.value) :: more.value, more.rest, by omega⟩
  | none =>
    let done ← p.expect .rightBrace "',' or '\x7d'" close.rest
    have := done.lt
    return ⟨[(key.value, value.value)], done.rest, by omega⟩
termination_by (ts.length, 7)

end

/-- the whole list of tokens as one expression -/
def whole (p : Parser) (ts : List Token) : Except ParseError Expr := do
  let e ← p.expression 0 ts
  if isEnd e.rest then return e.value else .error (p.unexpected e.rest "end of input")

end Parser

/-- the expression of a list of tokens -/
def parseTokens (o : ParseOptions) (ts : List Token) : Except ParseError Expr :=
  Parser.whole ⟨o.maxNestingDepth, o.maxChainLength, (ts.getLast?.map Token.position).getD 0⟩ ts

/-- the expression of a text -/
def parse (o : ParseOptions) (s : String) : Except SyntaxError Expr :=
  match tokenize o.allowSingleEqualSign s with
  | .error e => .error (.lex e)
  | .ok ts =>
    match parseTokens o ts with
    | .error e => .error (.parse e)
    | .ok e => .ok e

end ExprLang
