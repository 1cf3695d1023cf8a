import ExprLang.Engine

/-!
# Settings

Options are read from a tree of settings.  A group of options is a record of named settings, or a
list of them in a fixed order.  What is left out keeps its default, and names that mean nothing are
passed over; but every setting that is there has to be of the right form.

* `Setting`                     the trees;
* `Setting.fields?`             the settings of a group;
* `numberFormat?`, `comparerOptions?`, `engineConfig?`   options from settings;
* `EngineConfig.toSetting`      all options of an engine as settings.
-/

namespace ExprLang

inductive Setting where
  | null
  | boolean (b : Bool)
  | integer (i : Int)
  /-- a number that is not written as an integer, or is beyond 64 bits -/
  | fraction
  | text (s : String)
  | list (items : List Setting)
  | record (fields : List (String × Setting))
deriving Inhabited

namespace Setting

def fields? (names : List String) : Setting → Option (String → Option Setting)
  | .record fields => some fun name => fields.lookup name
  | .list items =>
    if items.length ≤ names.length then some fun name => (names.zip items).lookup name else none
  | _ => none

/-- the option of a setting, the default if there is none -/
def orDefault {α : Type} (read : Setting → Option α) (standard : α) : Option Setting → Option α
  | some s => read s
  | none => some standard

def boolean? : Setting → Option Bool
  | .boolean b => some b
  | _ => none

/-- a whole number of 64 bits, from zero -/
def size? : Setting → Option Nat
  | .integer i => if 0 ≤ i ∧ i < 18446744073709551616 then some i.toNat else none
  | _ => none

/-- a text of one character -/
def character? : Setting → Option Char
  | .text s =>
    match s.toList with
    | [c] => some c
    | _ => none
  | _ => none

/-- a text of one character, or null for no character -/
def optionalCharacter? : Setting → Option (Option Char)
  | .null => some none
  | s => s.character?.map some

/-- the comparison of a name -/
def namedComparison? : String → Option NullComparison
  | "min_value" => some .minValue
  | "sql" => some .sql
  | _ => none

/-- a name, or a record of one name with nothing in it -/
def nullComparison? : Setting → Option NullComparison
  | .text name => namedComparison? name
  | .record [(name, .null)] => namedComparison? name
  | _ => none

def numberFormat? (s : Setting) : Option NumberFormat := do
  let field ← s.fields? ["decimal_separator", "group_separator"]
  let decimalSeparator ← orDefault character? '.' (field "decimal_separator")
  let groupSeparator ← orDefault optionalCharacter? (some ',') (field "group_separator")
  return ⟨decimalSeparator, groupSeparator⟩

def comparerOptions? (s : Setting) : Option ComparerOptions := do
  let field ← s.fields? ["null_comparison", "suppress_errors", "number_format"]
  let nullComparison ← orDefault nullComparison? .minValue (field "null_comparison")
  let suppressErrors ← orDefault boolean? false (field "suppress_errors")
  let numberFormat ← orDefault numberFormat? {} (field "number_format")
  return ⟨nullComparison, suppressErrors, numberFormat⟩

def engineConfig? (s : Setting) : Option EngineConfig := do
  let field ← s.fields?
    ["allow_single_equal_sign", "null_comparison", "suppress_comparison_errors", "number_format",
      "max_nesting_depth", "max_chain_length"]
  let allowSingleEqualSign ← orDefault boolean? false (field "allow_single_equal_sign")
  let nullComparison ← orDefault nullComparison? .minValue (field "null_comparison")
  let suppressComparisonErrors ← orDefault boolean? false (field "suppress_comparison_errors")
  let numberFormat ← orDefault numberFormat? {} (field "number_format")
  let maxNestingDepth ← orDefault size? 256 (field "max_nesting_depth")
  let maxChainLength ← orDefault size? 4096 (field "max_chain_length")
  return ⟨allowSingleEqualSign, nullComparison, suppressComparisonErrors, numberFormat,
    maxNestingDepth, maxChainLength⟩

/-- a character as a text -/
def ofCharacter (c : Char) : Setting := .text (String.singleton c)

end Setting

def NullComparison.name : NullComparison → String
  | .minValue => "min_value"
  | .sql => "sql"

def NumberFormat.toSetting (f : NumberFormat) : Setting :=
  .record
    [("decimal_separator", .ofCharacter f.decimalSeparator),
      ("group_separator", (f.groupSeparator.map Setting.ofCharacter).getD .null)]

def EngineConfig.toSetting (c : EngineConfig) : Setting :=
  .record
    [("allow_single_equal_sign", .boolean c.allowSingleEqualSign),
      ("null_comparison", .text c.nullComparison.name),
      ("suppress_comparison_errors", .boolean c.suppressComparisonErrors),
      ("number_format", c.numberFormat.toSetting),
      ("max_nesting_depth", .integer c.maxNestingDepth),
      ("max_chain_length", .integer c.maxChainLength)]

end ExprLang
