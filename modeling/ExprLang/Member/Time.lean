import ExprLang.Decimal.Arithmetic
import ExprLang.Decimal.Division
import ExprLang.Member.Basic
import ExprLang.Time.DateTimeText
import ExprLang.Time.DurationText
import ExprLang.Time.Pattern

/-!
# Members of date-times and durations

* `millisecondsOf?`       an amount of a unit in whole milliseconds, a half to the even neighbour;
* `DateTime.addAmount?`   a date-time later by an amount of a unit;
* `Duration.total`        the length of a duration in a unit;
* `dateTimeMembers`, `durationMembers`   the tables.
-/

namespace ExprLang

/-! ## sums -/

def millisecondsOf? (unit : Nat) (amount : Decimal) : Option Duration := do
  let product ← amount.mul (.ofNat unit)
  let whole := product.round
  Duration.ofNanos? (whole * 1000000)

def DateTime.addAmount? (t : DateTime) (unit : Nat) (amount : Decimal) : Option DateTime :=
  (millisecondsOf? unit amount).bind t.add?

/-- a method that adds an amount of a unit -/
def addMember (unit : Nat) : Member DateTime :=
  .oneArgument fun t arg => do
    let amount ← numberArgument 1 arg
    match t.addAmount? unit amount with
    | some later => return .dateTime later
    | none => throw (.sumOutOfRange amount)

/-! ## texts -/

/-- `ToString()` in the standard form, `ToString(pattern)` by a pattern -/
def callDateTimeText (t : DateTime) : List Value → Except ArgumentFault Value
  | [] => .ok (.text t.toText)
  | [arg] => do
    let pattern ← textArgument 1 arg
    match Pattern.parse? pattern.toList with
    | none => throw (.invalidPattern pattern)
    | some items =>
      match t.write? items with
      | none => throw (.unwritablePattern pattern)
      | some cs => return .text (String.ofList cs)
  | args => .error (.countRange 0 1 args.length)

/-! ## lengths -/

namespace Duration

theorem natAbs_nanos_lt (d : Duration) : d.nanos.natAbs < Decimal.limit :=
  Nat.lt_of_le_of_lt d.bound (by decide)

/-- the exact length in seconds: whole seconds without places, others with nine -/
def exactSeconds (d : Duration) : Decimal :=
  if d.subsecond = 0 then .ofInt d.seconds
  else ⟨d.nanos < 0, d.nanos.natAbs, 9, d.natAbs_nanos_lt, by decide⟩

/-- the length in units of so many seconds, with the fewest places; none on overflow -/
def total? (d : Duration) (seconds : Nat) : Option Decimal :=
  (d.exactSeconds.div (.ofNat seconds)).map Decimal.normalize

/-- the length in milliseconds, with the fewest places; none on overflow -/
def totalMilliseconds? (d : Duration) : Option Decimal :=
  (d.exactSeconds.mul (.ofNat 1000)).map Decimal.normalize

end Duration

/-- a property that is a number, and null if the number has none -/
def numberProperty (read : Duration → Option Decimal) : Member Duration :=
  .property fun d => ((read d).map Value.number).getD .null

/-! ## tables -/

def dateTimeMembers : MemberTable DateTime :=
  [("AddDays", addMember 86400000),
    ("AddHours", addMember 3600000),
    ("AddMinutes", addMember 60000),
    ("AddSeconds", addMember 1000),
    ("Date", .property fun t => .dateTime t.midnight),
    ("Day", .property fun t => .count t.dayOfMonth),
    ("DayOfWeek", .property fun t => .count t.dayOfWeek),
    ("DayOfYear", .property fun t => .count t.dayOfYear),
    ("Hour", .property fun t => .count t.hour),
    ("Minute", .property fun t => .count t.minute),
    ("Month", .property fun t => .count t.month),
    ("Second", .property fun t => .count t.secondOfMinute),
    ("ToString", .method callDateTimeText),
    ("Year", .property fun t => .int t.year)]

/-- a property that counts whole units of so many seconds, beyond the next larger unit if any -/
def componentProperty (seconds : Int) (modulus : Option Int) : Member Duration :=
  .property fun d =>
    let whole := d.whole (seconds * 1000000000)
    .int (match modulus with
      | some m => whole.tmod m
      | none => whole)

def durationMembers : MemberTable Duration :=
  [("Days", componentProperty 86400 none),
    ("Hours", componentProperty 3600 (some 24)),
    ("Minutes", componentProperty 60 (some 60)),
    ("Seconds", componentProperty 1 (some 60)),
    ("ToString", .noArguments fun d => .text d.toText),
    ("TotalDays", numberProperty fun d => d.total? 86400),
    ("TotalHours", numberProperty fun d => d.total? 3600),
    ("TotalMilliseconds", numberProperty Duration.totalMilliseconds?),
    ("TotalMinutes", numberProperty fun d => d.total? 60),
    ("TotalSeconds", numberProperty fun d => d.total? 1)]

end ExprLang
