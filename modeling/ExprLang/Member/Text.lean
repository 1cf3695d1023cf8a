import ExprLang.Member.Basic
import ExprLang.Text.Blank
import ExprLang.Text.Case
import ExprLang.Text.Search

/-!
# Members of texts

Positions and lengths count characters.

* `textLength`, `substring`, `substringFrom`   length and parts of a text;
* `textMembers`                                the table.
-/

namespace ExprLang

/-- the number of characters -/
def textLength (s : String) : Nat := s.toList.length

/-- the text from a position on, which must not be behind the end -/
def substringFrom (s : String) (start : Nat) : Except ArgumentFault String :=
  if textLength s < start then .error (.startPastEnd start (textLength s))
  else .ok (String.ofList (s.toList.drop start))

/-- so many characters from a position on, which must not go behind the end -/
def substring (s : String) (start length : Nat) : Except ArgumentFault String := do
  let tail ← substringFrom s start
  if textLength tail < length then throw (.lengthPastEnd length start (textLength s))
  return String.ofList (tail.toList.take length)

/-- `Substring(start)` and `Substring(start, length)` -/
def callSubstring (s : String) : List Value → Except ArgumentFault Value
  | [start] => do
    let i ← indexArgument 1 start
    return .text (← substringFrom s i)
  | [start, length] => do
    let i ← indexArgument 1 start
    let _ ← substringFrom s i
    let n ← indexArgument 2 length
    return .text (← substring s i n)
  | args => .error (.countRange 1 2 args.length)

/-- `Replace(text, by)`: every occurrence of a text that is not empty -/
def callReplace (s : String) : List Value → Except ArgumentFault Value
  | [replaced, by_] => do
    let p ← textArgument 1 replaced
    let t ← textArgument 2 by_
    if p.isEmpty then throw .emptyReplaced
    return .text (String.ofList (Text.replace p.toList t.toList s.toList))
  | args => .error (.count 2 args.length)

/-- a method whose one argument is a text -/
def searchMember (search : List Char → List Char → Value) : Member String :=
  .oneArgument fun s arg => do
    let p ← textArgument 1 arg
    return search p.toList s.toList

def textMembers : MemberTable String :=
  [("Contains", searchMember fun p s => .boolean (Text.contains p s)),
    ("EndsWith", searchMember fun p s => .boolean (p.isSuffixOf s)),
    ("IndexOf", searchMember fun p s => positionValue (Text.find? p s)),
    ("Length", .property fun s => .count (textLength s)),
    ("Replace", .method callReplace),
    ("StartsWith", searchMember fun p s => .boolean (p.isPrefixOf s)),
    ("Substring", .method callSubstring),
    ("ToLower", .noArguments fun s => .text (Text.lower s)),
    ("ToString", .noArguments fun s => .text s),
    ("ToUpper", .noArguments fun s => .text (Text.upper s)),
    ("Trim", .noArguments fun s => .text (Text.trim s))]

end ExprLang
