import ExprLang.Value.Basic
import ExprLang.NumberFormat
import ExprLang.Time.DateTimeText
import ExprLang.Time.DurationText

/-!
# Values as text

* `Value.display`   the text of a value: nothing for null, `[a, b]` for a sequence, `k: v` between
                    braces for a mapping, the type name for a thing of the host;
* `Value.toText`    the same, where a number alone is written by a number format.
-/

namespace ExprLang.Value

mutual

def display : Value → String
  | .null => ""
  | .boolean b => if b then "true" else "false"
  | .number a => a.toText
  | .text s => s
  | .dateTime t => t.toText
  | .duration d => d.toText
  | .sequence items => "[" ++ ", ".intercalate (displayItems items) ++ "]"
  | .mapping entries => "\x7b" ++ ", ".intercalate (displayEntries entries) ++ "\x7d"
  | .callable h => h.typeName
  | .hostObject h _ => h.typeName

/-- the texts of the items -/
def displayItems : List Value → List String
  | [] => []
  | v :: vs => display v :: displayItems vs

/-- the texts of the entries -/
def displayEntries : List (Value × Value) → List String
  | [] => []
  | (k, v) :: es => (display k ++ ": " ++ display v) :: displayEntries es

end

def toText (f : NumberFormat) : Value → String
  | .number a => f.format a
  | v => v.display

end ExprLang.Value
