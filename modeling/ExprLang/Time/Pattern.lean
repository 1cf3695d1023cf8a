import ExprLang.Time.DateTime
import ExprLang.Time.Written

/-!
# Patterns for date-times

A pattern is a text in which `%` starts a specifier; every other character stands for itself.  A
specifier writes one field of a date-time, or several: `%F` is `%Y-%m-%d`.  Between `%` and the
specifier of one numeric field, `-`, `_` and `0` ask for no padding, blanks and zeros.

* `NumericField`, `PatternItem`  what a pattern is made of;
* `specifier?`                   the items of a one-letter specifier;
* `Pattern.parse?`               the items of a pattern, none if a specifier is unknown or cut off;
* `DateTime.write?`              a date-time by a pattern, none if it asks for a time zone.
-/

namespace ExprLang

/-- a field of a date-time that is written as a number -/
inductive NumericField where
  | year
  | century
  | yearOfCentury
  | isoYear
  | isoYearOfCentury
  | quarter
  | month
  | day
  | weekFromSunday
  | weekFromMonday
  | isoWeek
  | weekdayFromSunday
  | weekdayFromMonday
  | dayOfYear
  | hour
  | hourOfHalf
  | minute
  | second
  | nanosecond
  | timestamp
deriving DecidableEq, Repr

/-- an item of a pattern -/
inductive PatternItem where
  /-- a character that stands for itself -/
  | literal (c : Char)
  | number (field : NumericField) (pad : Padding)
  | monthName (short : Bool)
  | weekdayName (short : Bool)
  /-- before or after noon -/
  | dayHalf (upper : Bool)
  /-- the fraction of a second with its point, as short as possible -/
  | fraction
  /-- so many digits of the fraction of a second, behind a point or not -/
  | fractionDigits (count : Nat) (point : Bool)
  /-- a time zone, which a date-time does not have -/
  | zone
deriving DecidableEq, Repr

abbrev Pattern := List PatternItem

/-! ## specifiers -/

open PatternItem NumericField in
def specifier? : Char → Option Pattern
  | 'Y' => some [number year .zero]
  | 'C' => some [number century .zero]
  | 'y' => some [number yearOfCentury .zero]
  | 'G' => some [number isoYear .zero]
  | 'g' => some [number isoYearOfCentury .zero]
  | 'q' => some [number quarter .none]
  | 'm' => some [number month .zero]
  | 'd' => some [number day .zero]
  | 'e' => some [number day .space]
  | 'U' => some [number weekFromSunday .zero]
  | 'W' => some [number weekFromMonday .zero]
  | 'V' => some [number isoWeek .zero]
  | 'w' => some [number weekdayFromSunday .none]
  | 'u' => some [number weekdayFromMonday .none]
  | 'j' => some [number dayOfYear .zero]
  | 'H' => some [number hour .zero]
  | 'k' => some [number hour .space]
  | 'I' => some [number hourOfHalf .zero]
  | 'l' => some [number hourOfHalf .space]
  | 'M' => some [number minute .zero]
  | 'S' => some [number second .zero]
  | 'f' => some [number nanosecond .zero]
  | 's' => some [number timestamp .none]
  | 'A' => some [weekdayName false]
  | 'a' => some [weekdayName true]
  | 'B' => some [monthName false]
  | 'b' => some [monthName true]
  | 'h' => some [monthName true]
  | 'p' => some [dayHalf true]
  | 'P' => some [dayHalf false]
  | 'D' => some monthDayYear
  | 'x' => some monthDayYear
  | 'F' => some [number year .zero, literal '-', number month .zero, literal '-', number day .zero]
  | 'v' => some [number day .space, literal '-', monthName true, literal '-', number year .zero]
  | 'R' => some [number hour .zero, literal ':', number minute .zero]
  | 'T' => some clock
  | 'X' => some clock
  | 'r' => some [number hourOfHalf .zero, literal ':', number minute .zero, literal ':',
      number second .zero, literal ' ', dayHalf true]
  | 'c' => some ([weekdayName true, literal ' ', monthName true, literal ' ', number day .space,
      literal ' '] ++ clock ++ [literal ' ', number year .zero])
  | 't' => some [literal '\t']
  | 'n' => some [literal '\n']
  | '%' => some [literal '%']
  | 'z' => some [zone]
  | 'Z' => some [zone]
  | '+' => some [zone]
  | _ => none
where
  /-- hours, minutes and seconds -/
  clock : Pattern := [number hour .zero, literal ':', number minute .zero, literal ':',
    number second .zero]
  /-- month, day and year of the century -/
  monthDayYear : Pattern := [number month .zero, literal '/', number day .zero, literal '/',
    number yearOfCentury .zero]

/-- the padding a flag asks for -/
def padding? : Char → Option Padding
  | '-' => some .none
  | '_' => some .space
  | '0' => some .zero
  | _ => none

/-- the item of a specifier behind a padding flag: one numeric field -/
def padded? (pad : Padding) (c : Char) : Option PatternItem :=
  match specifier? c with
  | some [.number field _] => some (.number field pad)
  | _ => none

/-- is this a number of digits that the fraction of a second can be asked for in -/
def isFractionCount (c : Char) : Bool := c == '3' || c == '6' || c == '9'

/-- the items of the specifier behind a `%`, and what follows it -/
def directive? : List Char → Option (Pattern × List Char)
  | '#' :: 'z' :: cs => some ([.zone], cs)
  | ':' :: 'z' :: cs => some ([.zone], cs)
  | ':' :: ':' :: 'z' :: cs => some ([.zone], cs)
  | ':' :: ':' :: ':' :: 'z' :: cs => some ([.zone], cs)
  | '.' :: 'f' :: cs => some ([.fraction], cs)
  | '.' :: c :: 'f' :: cs =>
    if isFractionCount c then some ([.fractionDigits (Text.digitVal c) true], cs) else none
  | c :: cs =>
    match padding? c, cs with
    | some pad, d :: rest => (padded? pad d).map fun item => ([item], rest)
    | some _, [] => none
    | none, _ =>
      if isFractionCount c then
        match cs with
        | 'f' :: rest => some ([.fractionDigits (Text.digitVal c) false], rest)
        | _ => none
      else (specifier? c).map (·, cs)
  | [] => none

theorem length_directive? {cs rest : List Char} {items : Pattern}
    (h : directive? cs = some (items, rest)) : rest.length < cs.length := by
  unfold directive? at h
  grind [Option.map_eq_some_iff]

def Pattern.parse? : List Char → Option Pattern
  | [] => some []
  | c :: cs =>
    if c = '%' then
      match h : directive? cs with
      | some (items, rest) =>
        have := length_directive? h
        (Pattern.parse? rest).map (items ++ ·)
      | none => none
    else (Pattern.parse? cs).map (.literal c :: ·)
termination_by cs => cs.length

/-! ## writing -/

def monthNames : List String :=
  ["January", "February", "March", "April", "May", "June", "July", "August", "September", "October",
    "November", "December"]

def weekdayNames : List String :=
  ["Sunday", "Monday", "Tuesday", "Wednesday", "Thursday", "Friday", "Saturday"]

/-- the name at a position of a list, or its first three letters -/
def nameAt (names : List String) (short : Bool) (i : Nat) : List Char :=
  let name := (names.getD i "").toList
  if short then name.take 3 else name

namespace DateTime

/-- the quarter of the year, from one -/
def quarter (t : DateTime) : Nat := (t.month + 2) / 3

/-- the hour of a twelve-hour clock, from 1 to 12 -/
def hourOfHalf (t : DateTime) : Nat := if t.hour % 12 = 0 then 12 else t.hour % 12

/-- the seconds since 1970 -/
def timestamp (t : DateTime) : Int := (t.day - Calendar.epochDay) * 86400 + t.second

/-- a numeric field.  Of a century the low eight bits are written: a tens place of ten and more
continues the row of digit characters. -/
def writeField (t : DateTime) (pad : Padding) : NumericField → List Char
  | .year => yearChars pad t.year
  | .century => twoPlaces pad (t.year / 100 % 256).toNat
  | .yearOfCentury => twoPlaces pad (t.year % 100).toNat
  | .isoYear => yearChars pad (Calendar.isoYearOf t.day)
  | .isoYearOfCentury => twoPlaces pad (Calendar.isoYearOf t.day % 100).toNat
  | .quarter => Text.digits t.quarter
  | .month => twoPlaces pad t.month
  | .day => twoPlaces pad t.dayOfMonth
  | .weekFromSunday => twoPlaces pad (Calendar.weekOfYear (Calendar.weekdayFromSunday t.day) t.day)
  | .weekFromMonday => twoPlaces pad (Calendar.weekOfYear (Calendar.weekdayFromMonday t.day) t.day)
  | .isoWeek => twoPlaces pad (Calendar.isoWeekOf t.day)
  | .weekdayFromSunday => Text.digits (Calendar.weekdayFromSunday t.day)
  | .weekdayFromMonday => Text.digits (Calendar.weekdayFromMonday t.day + 1)
  | .dayOfYear => filled pad 3 false t.dayOfYear
  | .hour => twoPlaces pad t.hour
  | .hourOfHalf => twoPlaces pad t.hourOfHalf
  | .minute => twoPlaces pad t.minute
  | .second => twoPlaces pad t.clockSecond
  | .nanosecond => filled pad 9 false t.clockNano
  | .timestamp => filled pad 9 false t.timestamp

/-- an item of a pattern, none for a time zone -/
def writeItem? (t : DateTime) : PatternItem → Option (List Char)
  | .literal c => some [c]
  | .number field pad => some (t.writeField pad field)
  | .monthName short => some (nameAt monthNames short (t.month - 1))
  | .weekdayName short => some (nameAt weekdayNames short t.dayOfWeek)
  | .dayHalf upper =>
    let morning : Bool := t.hour < 12
    some (if upper then [if morning then 'A' else 'P', 'M']
      else [if morning then 'a' else 'p', 'm'])
  | .fraction => some (fractionChars t.clockNano)
  | .fractionDigits count point =>
    some ((if point then ['.'] else []) ++
      Text.zeroPadded count (t.clockNano / 10 ^ (9 - count)))
  | .zone => none

def write? (t : DateTime) (p : Pattern) : Option (List Char) :=
  (p.mapM t.writeItem?).map List.flatten

end DateTime

end ExprLang
