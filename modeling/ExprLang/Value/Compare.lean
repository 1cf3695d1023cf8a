import ExprLang.Value.Convert
import ExprLang.Value.Normalizer

/-!
# Comparing values

Any two values can be compared.  The first rule that fits decides.

1. Null is below every other value, or makes the answer undecided, as the options say.
2. Sequences are ordered by length, then by their first items that differ.
3. A boolean is compared with `true` if the other side is `1` or the text `1`, else with `false`.
4. Numbers and texts that look like numbers are compared as numbers.
5. One of these and any other text are compared as texts.
6. Values of one ordered kind have that kind's order.  If one kind is ordered, the right side is
   converted to the left side's kind, else the left side to the right side's kind; if neither can be
   converted, the left side is below.
7. Anything else is compared by its text, and after that by identity.

* `ComparerOptions`, `Comparer`        what a comparison depends on;
* `pairOrder`                          the rules for values of which one is no sequence;
* `View.compare`                       all rules, on views;
* `Comparer.compare`, `equals`         order and loose equality of values;
* `Comparer.exactEquals`               structural equality of normalized values.
-/

namespace ExprLang

/-- what comparing with null does -/
inductive NullComparison where
  /-- null is below every other value and equal to itself -/
  | minValue
  /-- the answer is undecided -/
  | sql
deriving DecidableEq, Repr

structure ComparerOptions where
  nullComparison : NullComparison := .minValue
  suppressErrors : Bool := false
  numberFormat : NumberFormat := {}
deriving DecidableEq, Repr

/-- why two values cannot be compared -/
inductive ComparisonError where
  /-- the text looks like a number but is beyond the range of decimals -/
  | outOfDecimalRange (text : String)
deriving DecidableEq, Repr

namespace ComparisonError

def message : ComparisonError → String
  | .outOfDecimalRange text =>
    "Cannot compare '" ++ text ++ "' as a number: value is out of decimal range"

/-- the category of the error -/
def code : ComparisonError → String
  | .outOfDecimalRange _ => "VALUE:COMPARE_RANGE"

end ComparisonError

/-- an order, undecided, or an error -/
abbrev Comparison := Except ComparisonError (Option Ordering)

/-! ## the rules -/

/-- rule 1, for values of which at least one is null -/
def nullOrder (mode : NullComparison) (a b : Value) : Option Ordering :=
  match mode with
  | .sql => none
  | .minValue =>
    some (if a.isNull && b.isNull then .eq else if a.isNull then .lt else .gt)

/-- the other side of a boolean: true if it is `1` or the text `1` -/
def isOne : Value → Bool
  | .text s => s == "1"
  | .number a => a.same Decimal.one
  | _ => false

/-- a number, or a text that looks like one -/
def isNumeric : Value → Bool
  | .number _ => true
  | .text s => Decimal.isDecimalText s
  | _ => false

/-- the number of a numeric value -/
def numericOperand : Value → Except ComparisonError Decimal
  | .number a => .ok a
  | .text s =>
    match Decimal.ofText? s with
    | some a => .ok a
    | none => .error (.outOfDecimalRange s)
  | v => .error (.outOfDecimalRange v.display)

def isText : Value → Bool
  | .text _ => true
  | _ => false

/-- the order of the kind that two values share; mappings and things of the host are only equal -/
def naturalOrder : Value → Value → Option Ordering
  | .boolean a, .boolean b => some (compare a b)
  | .number a, .number b => some (a.compare b)
  | .text a, .text b => some (compare a b)
  | .dateTime a, .dateTime b => some (a.compare b)
  | .duration a, .duration b => some (a.compare b)
  | .mapping a, .mapping b => if (Value.mapping a).same (.mapping b) then some .eq else none
  | .callable a, .callable b => if a.identity = b.identity then some .eq else none
  | .hostObject a _, .hostObject b _ => if a.identity = b.identity then some .eq else none
  | _, _ => none

/-- rule 7 -/
def lexicalOrder (a b : Value) : Ordering :=
  (compare a.display b.display).then
    (match a.handle?, b.handle? with
      | some x, some y => compare x.identity y.identity
      | _, _ => .eq)

/-- rule 6, and rule 7 where it does not fit -/
def convertedOrder (f : NumberFormat) (a b : Value) : Option Ordering :=
  match naturalOrder a b with
  | some o => some o
  | none =>
    if a.kind.isOrdered || b.kind.isOrdered then
      match b.convertTo f a.kind with
      | some b => naturalOrder a b
      | none =>
        match a.convertTo f b.kind with
        | some a => naturalOrder a b
        | none => some .lt
    else some (lexicalOrder a b)

/-- rules 4 to 7 -/
def plainOrder (f : NumberFormat) (a b : Value) : Comparison :=
  if isNumeric a && isNumeric b then do
    let x ← numericOperand a
    let y ← numericOperand b
    return some (x.compare y)
  else if isNumeric a && isText b || isNumeric b && isText a then
    .ok (some (compare (a.toText f) (b.toText f)))
  else .ok (convertedOrder f a b)

def pairOrder (o : ComparerOptions) (a b : Value) : Comparison :=
  if a.isNull || b.isNull then .ok (nullOrder o.nullComparison a b)
  else
    match a, b with
    | .boolean x, .boolean y => .ok (some (compare x y))
    | .boolean x, _ => .ok (some (compare x (isOne b)))
    | _, .boolean y => .ok (some (compare (isOne a) y))
    | _, _ => plainOrder o.numberFormat a b

/-! ## all rules -/

mutual

def View.compare (o : ComparerOptions) : View → View → Comparison
  | .branch _ as, .branch _ bs =>
    if as.length = bs.length then compareParts o as bs
    else .ok (some (Ord.compare as.length bs.length))
  | .branch items _, b => pairOrder o (.sequence items) b.value
  | .leaf v, b => pairOrder o v b.value

/-- the order of the first parts that are not equal -/
def compareParts (o : ComparerOptions) : List View → List View → Comparison
  | a :: as, b :: bs =>
    match View.compare o a b with
    | .ok (some .eq) => compareParts o as bs
    | decided => decided
  | _, _ => .ok (some .eq)

end

/-- compares values under options, seen through a normalizer -/
structure Comparer where
  options : ComparerOptions := {}
  normalizer : Normalizer := .identity

namespace Comparer

/-- the order of two values, before errors are suppressed -/
def order (c : Comparer) (a b : Value) : Comparison :=
  (c.normalizer.view a).compare c.options (c.normalizer.view b)

def compare (c : Comparer) (a b : Value) : Comparison :=
  match c.order a b with
  | .ok r => .ok r
  | .error e => if c.options.suppressErrors then .ok none else .error e

/-- loose equality: do the values compare as equal -/
def equals (c : Comparer) (a b : Value) : Except ComparisonError (Option Bool) :=
  (c.compare a b).map fun r => r.map (· == .eq)

def exactEquals (c : Comparer) (a b : Value) : Bool :=
  (c.normalizer.apply a).same (c.normalizer.apply b)

end Comparer

end ExprLang
