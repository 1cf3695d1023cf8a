import ExprLang.Text.Lines
import ExprLang.Text.Digits

/-!
# Diagnostics

A diagnostic shows a message over the lines of a source text around an offset, with a caret under
the offending column:

    Error at line 1, column 5:
      expected expression, found '*'

     1 | 1 + * 2
             ^

One line before and one line after the line of the error are shown.

* `Diagnostic.header`    the two lines above the source;
* `Diagnostic.numbered`  a source line behind its number;
* `Diagnostic.caret`     the line with the caret;
* `Diagnostic.rows`      all lines of a diagnostic;
* `Diagnostic.render`    the diagnostic as a text.
-/

namespace ExprLang

/-- a message about the byte offset `offset` of a source text -/
structure Diagnostic where
  source : List Char
  offset : Nat
  message : List Char

namespace Diagnostic

/-- the place the message is about -/
def place (d : Diagnostic) : Text.Place := Text.lineCol d.source d.offset

/-- how many source lines are looked at: up to the one after the line of the error -/
def lastLine (d : Diagnostic) : Nat := min (d.place.line + 1) (Text.lines d.source).length

/-- the width of the line numbers -/
def width (d : Diagnostic) : Nat := (Text.digits (max d.lastLine 1)).length

def header (d : Diagnostic) : List (List Char) :=
  ["Error at line ".toList ++ Text.digits d.place.line ++ ", column ".toList ++
      Text.digits d.place.column ++ [':'],
    [' ', ' '] ++ d.message,
    []]

def numbered (d : Diagnostic) (number : Nat) (line : List Char) : List Char :=
  [' '] ++ Text.padLeft d.width ' ' (Text.digits number) ++ [' ', '|', ' '] ++ line

def caret (d : Diagnostic) : List Char :=
  List.replicate (d.width + 4 + (d.place.column - 1)) ' ' ++ ['^']

/-- a source line, with the caret below it if it is the line of the error -/
def entry (d : Diagnostic) (number : Nat) (line : List Char) : List (List Char) :=
  d.numbered number line :: if number = d.place.line then [d.caret] else []

/-- the lines around the error -/
def excerpt (d : Diagnostic) : List (List Char) :=
  (((Text.lines d.source).zipIdx 1).take d.lastLine).drop (d.place.line - 2)
    |>.flatMap fun (line, number) => d.entry number line

/-- an empty line and the caret, when the error is past the last line -/
def tail (d : Diagnostic) : List (List Char) :=
  if (Text.lines d.source).length < d.place.line then [d.numbered d.place.line [], d.caret] else []

def rows (d : Diagnostic) : List (List Char) := d.header ++ d.excerpt ++ d.tail

def render (d : Diagnostic) : String := String.ofList (d.rows.flatMap (· ++ ['\n']))

end Diagnostic

end ExprLang
