import ExprLang.Text.Case.Context
import ExprLang.Text.Case.Upper
import ExprLang.Text.Case.Lower

/-!
# Upper and lower case of a text

* `upper`   maps every character by its full upper case;
* `lower`   maps every character by its full lower case, except that a capital sigma at the end of a
            word becomes a final sigma.

A sigma ends a word when the nearest character before it that is not case-ignorable is cased, and
the nearest such character after it is not.
-/

namespace ExprLang.Text

/-- is the first character that is not case-ignorable cased -/
def facesCased (cs : List Char) : Bool :=
  match cs.dropWhile isCaseIgnorable with
  | [] => false
  | c :: _ => isCased c

/-- lower case of what follows the reversed text `before` -/
def lowerFrom (before : List Char) : List Char → List Char
  | [] => []
  | c :: rest =>
    let image :=
      if c = 'Σ' then (if facesCased before && !facesCased rest then ['ς'] else ['σ'])
      else lowerChar c
    image ++ lowerFrom (c :: before) rest

def upper (s : String) : String := String.ofList (s.toList.flatMap upperChar)

def lower (s : String) : String := String.ofList (lowerFrom [] s.toList)

end ExprLang.Text
