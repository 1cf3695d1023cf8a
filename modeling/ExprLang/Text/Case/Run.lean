/-!
# Runs of a case mapping

A case mapping is kept as runs: the code points `first, first + step, …` up to `last` are all moved
by one offset.

* `Run.move?`    the image of a code point that lies on the run;
* `shiftByRuns`  the image under an ascending list of runs, the code point itself if on none.
-/

namespace ExprLang.Text

/-- every `step`-th code point from `first` to `last` moves by `offset` -/
structure Run where
  first : Nat
  last : Nat
  step : Nat
  offset : Int

def Run.move? (r : Run) (n : Nat) : Option Nat :=
  if r.first ≤ n ∧ n ≤ r.last ∧ (n - r.first) % r.step = 0 then some (n + r.offset).toNat else none

def shiftByRuns : List Run → Nat → Nat
  | [], n => n
  | r :: rs, n => if n < r.first then n else (r.move? n).getD (shiftByRuns rs n)

end ExprLang.Text
