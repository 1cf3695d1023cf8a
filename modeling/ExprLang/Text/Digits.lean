/-!
# Decimal digits

Natural numbers as lists of ASCII digits.

* `digits n`      the digits of `n`, most significant first, no leading zero;
* `ofDigits cs`   the value of a digit list;
* `padLeft`       fills a text up to a width;
* `ofDigits_digits`, `isDigit_of_mem_digits`   the digits of `n` are digits and read back as `n`.
-/

namespace ExprLang.Text

/-! Powers of natural numbers are those of the core library, also beside a library that has powers
of its own. -/
attribute [instance (2000)] instPowNat

/-- the digit of a number below ten -/
def digitChar (d : Nat) : Char := Char.ofNat (48 + d)

/-- the value of a digit -/
def digitVal (c : Char) : Nat := c.toNat - 48

def digits (n : Nat) : List Char :=
  if n < 10 then [digitChar n] else digits (n / 10) ++ [digitChar (n % 10)]
termination_by n

/-- the value of a list of digits read after the value `v` -/
def ofDigitsFrom (v : Nat) (cs : List Char) : Nat := cs.foldl (fun v c => 10 * v + digitVal c) v

def ofDigits (cs : List Char) : Nat := ofDigitsFrom 0 cs

def padLeft (width : Nat) (fill : Char) (cs : List Char) : List Char :=
  List.replicate (width - cs.length) fill ++ cs

/-- a number with zeros in front, up to `width` digits -/
def zeroPadded (width n : Nat) : List Char := padLeft width '0' (digits n)

/-! ## reading back -/

theorem digits_of_lt {n : Nat} (h : n < 10) : digits n = [digitChar n] := by
  rw [digits, if_pos h]

theorem digits_of_ge {n : Nat} (h : 10 ≤ n) :
    digits n = digits (n / 10) ++ [digitChar (n % 10)] := by
  rw [digits, if_neg (by omega)]

theorem lt_ten_cases {d : Nat} (h : d < 10) :
    d = 0 ∨ d = 1 ∨ d = 2 ∨ d = 3 ∨ d = 4 ∨ d = 5 ∨ d = 6 ∨ d = 7 ∨ d = 8 ∨ d = 9 := by omega

theorem digitVal_digitChar {d : Nat} (h : d < 10) : digitVal (digitChar d) = d := by
  rcases lt_ten_cases h with rfl | rfl | rfl | rfl | rfl | rfl | rfl | rfl | rfl | rfl <;> decide

theorem isDigit_digitChar {d : Nat} (h : d < 10) : (digitChar d).isDigit = true := by
  rcases lt_ten_cases h with rfl | rfl | rfl | rfl | rfl | rfl | rfl | rfl | rfl | rfl <;> decide

theorem ofDigitsFrom_nil (v : Nat) : ofDigitsFrom v [] = v := List.foldl_nil

theorem ofDigitsFrom_cons (v : Nat) (c : Char) (cs : List Char) :
    ofDigitsFrom v (c :: cs) = ofDigitsFrom (10 * v + digitVal c) cs := List.foldl_cons ..

theorem ofDigitsFrom_append (v : Nat) (a b : List Char) :
    ofDigitsFrom v (a ++ b) = ofDigitsFrom (ofDigitsFrom v a) b := by
  simp [ofDigitsFrom, List.foldl_append]

theorem ofDigits_digits (n : Nat) : ofDigits (digits n) = n := by
  induction n using Nat.strongRecOn with
  | _ n ih =>
    by_cases h : n < 10
    · rw [digits_of_lt h, ofDigits, ofDigitsFrom_cons, ofDigitsFrom_nil, digitVal_digitChar h]
      omega
    · rw [digits_of_ge (by omega), ofDigits, ofDigitsFrom_append, ← ofDigits, ih _ (by omega),
        ofDigitsFrom_cons, ofDigitsFrom_nil, digitVal_digitChar (by omega)]
      omega

theorem isDigit_of_mem_digits {n : Nat} {c : Char} (h : c ∈ digits n) : c.isDigit = true := by
  induction n using Nat.strongRecOn with
  | _ n ih =>
    by_cases hn : n < 10
    · rw [digits_of_lt hn, List.mem_singleton] at h
      rw [h, isDigit_digitChar hn]
    · rw [digits_of_ge (by omega), List.mem_append, List.mem_singleton] at h
      rcases h with h | h
      · exact ih _ (by omega) h
      · rw [h, isDigit_digitChar (by omega)]

theorem digits_ne_nil (n : Nat) : digits n ≠ [] := by
  rw [digits]
  split <;> simp

/-! ## in front of a point -/

section
variable {ds : List Char} (h : ∀ d ∈ ds, d.isDigit = true) (rest : List Char)
include h

theorem takeWhile_digits_point : (ds ++ '.' :: rest).takeWhile Char.isDigit = ds := by
  rw [List.takeWhile_append_of_pos h, List.takeWhile_cons_of_neg (by decide), List.append_nil]

theorem dropWhile_digits_point :
    (ds ++ '.' :: rest).dropWhile Char.isDigit = '.' :: rest := by
  rw [List.dropWhile_append_of_pos h, List.dropWhile_cons_of_neg (by decide)]

end

end ExprLang.Text
