/-!
# Lines of a text

* `lines cs`        the lines, each without the line feed that ends it and one carriage return
                    before that;
* `lineCol cs o`    line and column, both from one, of the byte offset `o`.

A text that ends in a line feed has no further line after it.  Columns count characters.
-/

namespace ExprLang.Text

/-- a finished line, given in reverse: one carriage return at its end belongs to the line break -/
def closeLine : List Char → List Char
  | '\r' :: rev => rev.reverse
  | rev => rev.reverse

/-- the lines of a text of which the reversed `rev` has been read since the last line break -/
def linesFrom (rev : List Char) : List Char → List (List Char)
  | [] => if rev.isEmpty then [] else [rev.reverse]
  | c :: cs => if c = '\n' then closeLine rev :: linesFrom [] cs else linesFrom (c :: rev) cs

def lines (cs : List Char) : List (List Char) := linesFrom [] cs

/-- a one-based line and column -/
structure Place where
  line : Nat
  column : Nat
deriving DecidableEq, Repr

/-- the place of the byte offset `offset`, when `cs` starts at byte `start` and place `p` -/
def placeFrom (p : Place) (start offset : Nat) : List Char → Place
  | [] => p
  | c :: cs =>
    if offset ≤ start then p
    else
      placeFrom (if c = '\n' then ⟨p.line + 1, 1⟩ else ⟨p.line, p.column + 1⟩)
        (start + c.utf8Size) offset cs

def lineCol (cs : List Char) (offset : Nat) : Place := placeFrom ⟨1, 1⟩ 0 offset cs

theorem linesFrom_nil (rev : List Char) :
    linesFrom rev [] = if rev.isEmpty then [] else [rev.reverse] := rfl

theorem linesFrom_cons (rev : List Char) (c : Char) (cs : List Char) :
    linesFrom rev (c :: cs) =
      if c = '\n' then closeLine rev :: linesFrom [] cs else linesFrom (c :: rev) cs := rfl

theorem placeFrom_cons (p : Place) (start offset : Nat) (c : Char) (cs : List Char) :
    placeFrom p start offset (c :: cs) =
      if offset ≤ start then p
      else
        placeFrom (if c = '\n' then ⟨p.line + 1, 1⟩ else ⟨p.line, p.column + 1⟩)
          (start + c.utf8Size) offset cs := rfl

end ExprLang.Text
