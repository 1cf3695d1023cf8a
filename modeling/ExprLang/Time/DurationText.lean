import ExprLang.Time.Duration
import ExprLang.Text.Digits
import ExprLang.Text.Blank

/-!
# Durations as text

A duration is written `[-][d.]hh:mm:ss[.fffffff]`: days only if there are any, and behind the
seconds the ticks of a hundred nanoseconds, only if there are any.

When read, the hours may have one digit, the seconds may be missing, and there may be from one to
seven digits of ticks.

* `Duration.toText`, `Duration.ofText?`
-/

namespace ExprLang.Duration

/-- the text of a duration -/
def toChars (d : Duration) : List Char :=
  let n := d.nanos.natAbs
  let s := n / 1000000000
  let ticks := n % 1000000000 / 100
  (if d.nanos < 0 then ['-'] else []) ++
  (if s / 86400 = 0 then [] else Text.digits (s / 86400) ++ ['.']) ++
  Text.zeroPadded 2 (s % 86400 / 3600) ++ [':'] ++
  Text.zeroPadded 2 (s % 3600 / 60) ++ [':'] ++
  Text.zeroPadded 2 (s % 60) ++
  (if ticks = 0 then [] else '.' :: Text.zeroPadded 7 ticks)

/-- the text of a duration -/
def toText (d : Duration) : String := String.ofList d.toChars

/-! ## reading -/

/-- the fields of a duration text -/
structure Fields where
  days : Nat
  hours : Nat
  minutes : Nat
  seconds : Nat
  ticks : Nat

/-- the ticks written by one to seven digits, which are the leading ones of seven -/
def ticks? (cs : List Char) : Option Nat :=
  if cs.all Char.isDigit && 1 ≤ cs.length && cs.length ≤ 7 then
    some (Text.ofDigits cs * 10 ^ (7 - cs.length))
  else none

/-- the value of exactly two digits and what follows them -/
def twoDigits? : List Char → Option (Nat × List Char)
  | a :: b :: cs => if a.isDigit && b.isDigit then some (Text.ofDigits [a, b], cs) else none
  | _ => none

/-- the seconds and ticks behind the minutes -/
def secondsAndTicks? : List Char → Option (Nat × Nat)
  | [] => some (0, 0)
  | ':' :: cs =>
    match twoDigits? cs with
    | some (s, []) => some (s, 0)
    | some (s, '.' :: cs) => (ticks? cs).map (s, ·)
    | _ => none
  | _ => none

/-- hours, minutes and the rest, when the digits in front of the first colon are `hours` -/
def clock? (days : Nat) (hours : List Char) (rest : List Char) : Option Fields :=
  match rest with
  | ':' :: cs =>
    if 1 ≤ hours.length && hours.length ≤ 2 then
      (twoDigits? cs).bind fun (minutes, cs) =>
        (secondsAndTicks? cs).map fun (seconds, ticks) =>
          ⟨days, Text.ofDigits hours, minutes, seconds, ticks⟩
    else none
  | _ => none

/-- the fields of an unsigned duration text -/
def fields? (cs : List Char) : Option Fields :=
  let first := cs.takeWhile Char.isDigit
  match cs.dropWhile Char.isDigit with
  | '.' :: rest =>
    if first.isEmpty then none
    else clock? (Text.ofDigits first) (rest.takeWhile Char.isDigit) (rest.dropWhile Char.isDigit)
  | rest => clock? 0 first rest

/-- the nanoseconds of fields that a clock can show -/
def Fields.nanos? (f : Fields) : Option Nat :=
  if f.hours ≤ 23 ∧ f.minutes ≤ 59 ∧ f.seconds ≤ 59 then
    some ((f.days * 86400 + f.hours * 3600 + f.minutes * 60 + f.seconds) * 1000000000 +
      f.ticks * 100)
  else none

/-- the duration of an unsigned text -/
def unsigned? (cs : List Char) : Option Duration :=
  (fields? cs).bind fun f => f.nanos?.bind fun n => ofNanos? n

/-- the duration a text writes; blanks around it are left out -/
def ofText? (s : String) : Option Duration :=
  match Text.trimChars s.toList with
  | '-' :: cs => (unsigned? cs).map neg
  | cs => unsigned? cs

end ExprLang.Duration
