/-!
# Searching and replacing

Positions count characters.

* `find? p s`         the least position at which `p` occurs in `s`;
* `contains p s`      does `p` occur in `s`;
* `replace p t s`     `s` with `t` for the occurrences of `p`, from the left and without overlap.
-/

namespace ExprLang.Text

def find? (p : List Char) : List Char → Option Nat
  | [] => if p.isEmpty then some 0 else none
  | c :: s => if p.isPrefixOf (c :: s) then some 0 else (find? p s).map (· + 1)

def contains (p s : List Char) : Bool := (find? p s).isSome

/-- `s` without its first `skip` characters, with `t` for every `p` that is found from the left -/
def replaceFrom (p t : List Char) : Nat → List Char → List Char
  | _, [] => []
  | skip + 1, _ :: s => replaceFrom p t skip s
  | 0, c :: s =>
    if p.isPrefixOf (c :: s) then t ++ replaceFrom p t (p.length - 1) s
    else c :: replaceFrom p t 0 s

def replace (p t s : List Char) : List Char :=
  if p.isEmpty then s else replaceFrom p t 0 s

theorem find?_nil (p : List Char) : find? p [] = if p.isEmpty then some 0 else none := rfl

theorem find?_cons (p : List Char) (c : Char) (s : List Char) :
    find? p (c :: s) = if p.isPrefixOf (c :: s) then some 0 else (find? p s).map (· + 1) := rfl

theorem replaceFrom_nil (p t : List Char) (skip : Nat) : replaceFrom p t skip [] = [] := by
  cases skip <;> rfl

theorem replaceFrom_succ (p t : List Char) (skip : Nat) (c : Char) (s : List Char) :
    replaceFrom p t (skip + 1) (c :: s) = replaceFrom p t skip s := rfl

theorem replaceFrom_zero (p t : List Char) (c : Char) (s : List Char) :
    replaceFrom p t 0 (c :: s) =
      if p.isPrefixOf (c :: s) then t ++ replaceFrom p t (p.length - 1) s
      else c :: replaceFrom p t 0 s := rfl

theorem replaceFrom_eq_drop (p t : List Char) (skip : Nat) (s : List Char) :
    replaceFrom p t skip s = replaceFrom p t 0 (s.drop skip) := by
  induction skip generalizing s with
  | zero => rfl
  | succ skip ih =>
    cases s with
    | nil => simp [replaceFrom_nil]
    | cons c s => rw [replaceFrom_succ, ih, List.drop_succ_cons]

end ExprLang.Text
