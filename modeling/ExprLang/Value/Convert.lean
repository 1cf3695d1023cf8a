import ExprLang.Value.Display

/-!
# Conversions between kinds

* `Value.convertTo`   the value as one of another kind, none if there is no such conversion;
* `boolean?`          the truth value a text writes.
-/

namespace ExprLang

/-- a text in lower case, as far as its letters are ASCII -/
def asciiLower (cs : List Char) : List Char := cs.map Char.toLower

def boolean? (s : String) : Option Bool :=
  let cs := asciiLower (Text.trimChars s.toList)
  if cs = "true".toList then some true else if cs = "false".toList then some false else none

def Value.convertTo (f : NumberFormat) (v : Value) (target : Value.Kind) : Option Value :=
  if v.kind = target then some v
  else
    match v, target with
    | .text s, .number => (f.parse s).map .number
    | .text s, .boolean => (boolean? s).map .boolean
    | .text s, .dateTime => (DateTime.ofText? s).map .dateTime
    | .text s, .duration => (Duration.ofText? s).map .duration
    | .number a, .text => some (.text (f.format a))
    | .number a, .boolean => some (.boolean !a.isZero)
    | .boolean b, .number => some (.number (if b then Decimal.one else Decimal.zero))
    | .boolean _, .text => some (.text v.display)
    | .dateTime _, .text => some (.text v.display)
    | .duration _, .text => some (.text v.display)
    | _, _ => none

end ExprLang
