import ExprLang.Time.DateTime
import ExprLang.Time.Written
import ExprLang.Text.Blank

/-!
# Date-times as text

A date-time is written `YYYY-MM-DD hh:mm:ss[.fff]`.  It is read by one of five layouts, tried in
order: date and time, divided by a blank or a `T`, with and without seconds, and a date alone.

A field of a layout first skips blanks.  A year has up to four digits, or any number behind a sign;
every other field has one or two.  A blank in a layout stands for any blanks, none included.

* `DateTime.toText`     the text of a date-time;
* `Layout`, `layouts`   what the texts of date-times look like;
* `Layout.read`         the fields of a text of a layout;
* `DateTime.ofText?`    the date-time of a text.
-/

namespace ExprLang

/-- the text of a date-time -/
def DateTime.toChars (t : DateTime) : List Char :=
  yearChars .zero t.year ++ ['-'] ++ twoPlaces .zero t.month ++ ['-'] ++
    twoPlaces .zero t.dayOfMonth ++ [' '] ++ twoPlaces .zero t.hour ++ [':'] ++
    twoPlaces .zero t.minute ++ [':'] ++ twoPlaces .zero t.clockSecond ++ fractionChars t.clockNano

def DateTime.toText (t : DateTime) : String := String.ofList t.toChars

/-! ## layouts -/

/-- the fields of a date-time text; what a layout leaves out is zero -/
structure DateTimeFields where
  year : Int := 0
  month : Nat := 0
  day : Nat := 0
  hour : Nat := 0
  minute : Nat := 0
  second : Nat := 0
  nano : Nat := 0

/-- a part of a layout -/
inductive LayoutPart where
  | year
  | month
  | day
  | hour
  | minute
  | second
  /-- a point and digits, or nothing -/
  | fraction
  /-- any blanks -/
  | blanks
  /-- this character -/
  | exactly (c : Char)

abbrev Layout := List LayoutPart

/-- the first `max` digits, at least one, and what follows -/
def numeral? (max : Nat) (cs : List Char) : Option (Nat × List Char) :=
  let ds := (cs.take max).takeWhile Char.isDigit
  if ds.isEmpty then none else some (Text.ofDigits ds, cs.drop ds.length)

/-- a year: any digits behind a sign, or up to four -/
def yearField? : List Char → Option (Int × List Char)
  | '-' :: cs => (numeral? cs.length cs).map fun (n, rest) => (-(n : Int), rest)
  | '+' :: cs => (numeral? cs.length cs).map fun (n, rest) => ((n : Int), rest)
  | cs => (numeral? 4 cs).map fun (n, rest) => ((n : Int), rest)

/-- the fraction of a second behind its point: nine digits count, further ones are skipped -/
def fractionField? (cs : List Char) : Option (Nat × List Char) :=
  let ds := cs.takeWhile Char.isDigit
  if ds.isEmpty then none
  else
    let nine := ds.take 9
    some (Text.ofDigits nine * 10 ^ (9 - nine.length), cs.dropWhile Char.isDigit)

def LayoutPart.read (f : DateTimeFields) (cs : List Char) :
    LayoutPart → Option (DateTimeFields × List Char)
  | .year => (yearField? (Text.trimStart cs)).map fun (y, rest) => ({ f with year := y }, rest)
  | .month => (numeral? 2 (Text.trimStart cs)).map fun (n, rest) => ({ f with month := n }, rest)
  | .day => (numeral? 2 (Text.trimStart cs)).map fun (n, rest) => ({ f with day := n }, rest)
  | .hour => (numeral? 2 (Text.trimStart cs)).map fun (n, rest) => ({ f with hour := n }, rest)
  | .minute => (numeral? 2 (Text.trimStart cs)).map fun (n, rest) => ({ f with minute := n }, rest)
  | .second => (numeral? 2 (Text.trimStart cs)).map fun (n, rest) => ({ f with second := n }, rest)
  | .fraction =>
    match cs with
    | '.' :: ds => (fractionField? ds).map fun (n, rest) => ({ f with nano := n }, rest)
    | _ => some (f, cs)
  | .blanks => some (f, Text.trimStart cs)
  | .exactly c => if cs.head? = some c then some (f, cs.tail) else none

def Layout.read (f : DateTimeFields) (cs : List Char) : Layout → Option DateTimeFields
  | [] => if cs.isEmpty then some f else none
  | part :: rest => (part.read f cs).bind fun (f, cs) => Layout.read f cs rest

/-- the date `YYYY-MM-DD` -/
def dateLayout : Layout := [.year, .exactly '-', .month, .exactly '-', .day]

/-- the time `hh:mm` -/
def minutesLayout : Layout := [.hour, .exactly ':', .minute]

/-- the time `hh:mm:ss[.fff]` -/
def secondsLayout : Layout := minutesLayout ++ [.exactly ':', .second, .fraction]

/-- the layouts a date-time is read by, in the order they are tried -/
def layouts : List Layout :=
  [dateLayout ++ .blanks :: secondsLayout,
   dateLayout ++ .exactly 'T' :: secondsLayout,
   dateLayout ++ .blanks :: minutesLayout,
   dateLayout ++ .exactly 'T' :: minutesLayout,
   dateLayout]

/-! ## reading -/

/-- the date-time of fields that calendar and clock can show; second 60 is a leap second -/
def DateTimeFields.dateTime? (f : DateTimeFields) : Option DateTime :=
  let date : Calendar.CivilDate := ⟨f.year, f.month, f.day⟩
  if date.isValid && f.hour ≤ 23 && f.minute ≤ 59 && f.second ≤ 60 then
    let start := f.hour * 3600 + f.minute * 60
    if f.second = 60 then DateTime.make? date.toDayNumber (start + 59) (1000000000 + f.nano)
    else DateTime.make? date.toDayNumber (start + f.second) f.nano
  else none

/-- the date-time of a text of one layout -/
def Layout.dateTime? (cs : List Char) (l : Layout) : Option DateTime :=
  (l.read {} cs).bind DateTimeFields.dateTime?

def DateTime.ofText? (s : String) : Option DateTime :=
  layouts.findSome? (Layout.dateTime? (Text.trimChars s.toList))

end ExprLang
