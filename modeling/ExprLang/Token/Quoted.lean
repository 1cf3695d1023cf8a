import ExprLang.Text.Bytes
import ExprLang.SyntaxError

/-!
# String literals

A string literal stands between double quotes.  A backslash starts an escape: one of
`\" \\ \' \/ \n \r \t \0`, or `\u` and four hexadecimal digits that name a character.

* `bodyOf?`       the text up to the closing quote, and what follows it; the character behind a
                  backslash closes nothing;
* `escape`        the character of an escape;
* `unescape`      the content of a literal;
* `read`          a literal, from behind its opening quote on.
-/

namespace ExprLang.Quoted

def bodyOf? : List Char → Option (List Char × List Char)
  | [] => none
  | '"' :: rest => some ([], rest)
  | '\\' :: c :: rest => (bodyOf? rest).map fun (body, rest) => ('\\' :: c :: body, rest)
  | c :: rest => (bodyOf? rest).map fun (body, rest) => (c :: body, rest)

/-! ## escapes -/

/-- the value of a hexadecimal digit -/
def hexVal? (c : Char) : Option Nat :=
  if '0' ≤ c ∧ c ≤ '9' then some (c.toNat - 48)
  else if 'a' ≤ c ∧ c ≤ 'f' then some (c.toNat - 87)
  else if 'A' ≤ c ∧ c ≤ 'F' then some (c.toNat - 55)
  else none

/-- the character of four hexadecimal digits -/
def hexChar? (cs : List Char) : Option Char :=
  if cs.length = 4 then
    (cs.mapM hexVal?).bind fun ds =>
      let n := ds.foldl (fun v d => 16 * v + d) 0
      if n.isValidChar then some (Char.ofNat n) else none
  else none

/-- the character of a one-letter escape -/
def simpleEscape? : Char → Option Char
  | '"' => some '"'
  | '\\' => some '\\'
  | '\'' => some '\''
  | '/' => some '/'
  | 'n' => some '\n'
  | 'r' => some '\r'
  | 't' => some '\t'
  | '0' => some '\x00'
  | _ => none

/-- the character of the escape behind a backslash, and how many characters it takes; else the
characters that make no escape -/
def escape (c : Char) (rest : List Char) : Except (List Char) (Char × Nat) :=
  if c = 'u' then
    match hexChar? (rest.take 4) with
    | some d => .ok (d, 4)
    | none => .error ('u' :: rest.take 4)
  else
    match simpleEscape? c with
    | some d => .ok (d, 0)
    | none => .error [c]

def unescape (offset : Nat) : List Char → Except LexError (List Char)
  | [] => .ok []
  | '\\' :: [] => .error ⟨offset, .invalidEscape ""⟩
  | '\\' :: c :: rest =>
    match escape c rest with
    | .ok (d, taken) =>
      (unescape (offset + 1 + c.utf8Size + Text.byteLength (rest.take taken))
        (rest.drop taken)).map (d :: ·)
    | .error sequence => .error ⟨offset, .invalidEscape (String.ofList sequence)⟩
  | c :: rest => (unescape (offset + c.utf8Size) rest).map (c :: ·)
termination_by cs => cs.length
decreasing_by all_goals simp only [List.length_cons, List.length_drop]; omega

/-! ## literals -/

def read (offset : Nat) (cs : List Char) : Except LexError (List Char × List Char) :=
  match bodyOf? cs with
  | none => .error ⟨offset, .unterminatedString⟩
  | some (body, _) => (unescape (offset + 1) body).map (·, body)

end ExprLang.Quoted
