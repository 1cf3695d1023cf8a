import ExprLang.Decimal.Basic
import ExprLang.Time.DateTime

/-!
# Values

A value is what an expression evaluates to and what a variable holds.

* `Handle`         what the language knows of a thing of the host: an identity and a type name;
* `Value`          the values; a mapping is its list of entries, in the order of insertion;
* `Value.Kind`     the ten kinds of values, with their names and properties;
* `Value.same`     structural equality: numbers by their value, mappings without regard to order,
                   things of the host by identity;
* `find?`, `insert`   looking up and setting the entry of a key.
-/

namespace ExprLang

structure Handle where
  identity : Nat
  typeName : String
deriving DecidableEq, Repr

inductive Value where
  | null
  | boolean (b : Bool)
  | number (a : Decimal)
  | text (s : String)
  | dateTime (t : DateTime)
  | duration (d : Duration)
  | sequence (items : List Value)
  | mapping (entries : List (Value × Value))
  /-- something of the host that can be called -/
  | callable (handle : Handle)
  /-- any other thing of the host; `held` is the plain value it stands for, if it wraps one -/
  | hostObject (handle : Handle) (held : Option Value)
deriving Inhabited

namespace Value

/-- the entries of a mapping -/
abbrev Entries := List (Value × Value)

/-- the number of an integer -/
def int (i : Int) : Value := .number (Decimal.ofInt i)

/-- the number of a count -/
def count (n : Nat) : Value := .number (Decimal.ofNat n)

/-! ## kinds -/

inductive Kind where
  | null
  | boolean
  | number
  | text
  | dateTime
  | duration
  | sequence
  | mapping
  | callable
  | hostObject
deriving DecidableEq, Repr

namespace Kind

def name : Kind → String
  | null => "null"
  | boolean => "boolean"
  | number => "number"
  | text => "text"
  | dateTime => "datetime"
  | duration => "duration"
  | sequence => "sequence"
  | mapping => "mapping"
  | callable => "callable"
  | hostObject => "object"

/-- the kinds, in a fixed order -/
def all : List Kind :=
  [null, boolean, number, text, dateTime, duration, sequence, mapping, callable, hostObject]

/-- have the values of the kind an order of their own -/
def isOrdered : Kind → Bool
  | boolean | number | text | dateTime | duration => true
  | _ => false

/-- are the values of the kind things of the host -/
def isHost : Kind → Bool
  | callable | hostObject => true
  | _ => false

/-- do the values of the kind hold other values -/
def isCollection : Kind → Bool
  | sequence | mapping => true
  | _ => false

theorem mem_all (k : Kind) : k ∈ all := by
  cases k <;> decide

end Kind

def kind : Value → Kind
  | .null => .null
  | .boolean _ => .boolean
  | .number _ => .number
  | .text _ => .text
  | .dateTime _ => .dateTime
  | .duration _ => .duration
  | .sequence _ => .sequence
  | .mapping _ => .mapping
  | .callable _ => .callable
  | .hostObject .. => .hostObject

/-- the handle of a thing of the host -/
def handle? : Value → Option Handle
  | .callable h => some h
  | .hostObject h _ => some h
  | _ => none

/-- the name of the host's type, or of the kind -/
def typeName (v : Value) : String :=
  match v.handle? with
  | some h => h.typeName
  | none => v.kind.name

def isNull : Value → Bool
  | .null => true
  | _ => false

/-- does the value count as true: null, false and zero do not -/
def isTruthy : Value → Bool
  | .null => false
  | .boolean b => b
  | .number a => !a.isZero
  | _ => true

/-! ## structural equality -/

mutual

def same : Value → Value → Bool
  | .null, .null => true
  | .boolean a, .boolean b => a == b
  | .number a, .number b => a.same b
  | .text a, .text b => a == b
  | .dateTime a, .dateTime b => a == b
  | .duration a, .duration b => a == b
  | .sequence as, .sequence bs => sameItems as bs
  | .mapping as, .mapping bs => as.length == bs.length && foundIn as bs
  | .callable a, .callable b => a.identity == b.identity
  | .hostObject a _, .hostObject b _ => a.identity == b.identity
  | _, _ => false

/-- are the items pairwise structurally equal -/
def sameItems : List Value → List Value → Bool
  | [], [] => true
  | a :: as, b :: bs => same a b && sameItems as bs
  | _, _ => false

/-- has every entry of the first mapping its key in the second one, with an equal value -/
def foundIn : List (Value × Value) → List (Value × Value) → Bool
  | [], _ => true
  | (k, v) :: rest, other =>
    (match other.find? fun e => same k e.1 with
      | some e => same v e.2
      | none => false) && foundIn rest other

end

/-! ## entries -/

namespace Entries

/-- the value of a key -/
def find? (es : Entries) (key : Value) : Option Value :=
  (List.find? (fun e => key.same e.1) es).map (·.2)

def contains (es : Entries) (key : Value) : Bool := (es.find? key).isSome

/-- the entries with this value for the key: an old key keeps its place and its form -/
def insert : Entries → Value → Value → Entries
  | [], key, v => [(key, v)]
  | (k, old) :: es, key, v =>
    if key.same k then (k, v) :: es else (k, old) :: insert es key v

/-- the entries of a list of pairs, of which a later one replaces an earlier one of the same key -/
def ofList (pairs : List (Value × Value)) : Entries :=
  pairs.foldl (fun es p => es.insert p.1 p.2) []

theorem find?_nil (key : Value) : find? [] key = none := rfl

theorem find?_cons (k v : Value) (es : Entries) (key : Value) :
    find? ((k, v) :: es) key = if key.same k then some v else find? es key := by
  simp only [find?, List.find?_cons]
  cases key.same k <;> rfl

end Entries

end Value

end ExprLang
