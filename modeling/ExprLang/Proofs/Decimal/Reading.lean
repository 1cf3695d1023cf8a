import ExprLang.Decimal.Read

/-!
# Decimals are read as they are written

* `Decimal.whole`, `Decimal.places`   the digits of a decimal before and behind the point;
* `Decimal.spelled c a`               these digits, with `c` between them if there are places;
* `Decimal.written c a`               the same behind a minus sign, if the decimal has one;
* `Decimal.abs`                       a decimal without its sign.

Reading digits gives their value as long as that is in range (`readWhole_eq`, `readPlaces_eq`), so a
decimal without sign is read back with its mantissa and its scale: `ofDigits?_toChars`.  Behind a
sign too, but a zero loses it (`ofText?_toText`).  With any other character than the point before
the places it is no decimal text (`isDecimalText_written`).
-/

namespace ExprLang

open Text

theorem le_ofDigitsFrom (v : Nat) (cs : List Char) : v ≤ ofDigitsFrom v cs := by
  induction cs generalizing v with
  | nil => exact Nat.le_refl v
  | cons c cs ih =>
    rw [ofDigitsFrom_cons]
    have := ih (10 * v + digitVal c)
    omega

theorem readWhole_eq {m : Nat} {cs : List Char} (h : ofDigitsFrom m cs < Decimal.limit) :
    readWhole m cs = some (ofDigitsFrom m cs) := by
  induction cs generalizing m with
  | nil => rfl
  | cons c cs ih =>
    rw [ofDigitsFrom_cons] at h ⊢
    rw [readWhole, if_pos (Nat.lt_of_le_of_lt (le_ofDigitsFrom ..) h), ih h]

theorem readPlaces_eq {m s : Nat} {cs : List Char} (h : ofDigitsFrom m cs < Decimal.limit)
    (hs : s + cs.length ≤ 28) :
    readPlaces m s cs = some (ofDigitsFrom m cs, s + cs.length) := by
  induction cs generalizing m s with
  | nil => rfl
  | cons c cs ih =>
    rw [ofDigitsFrom_cons] at h ⊢
    rw [List.length_cons] at hs ⊢
    have hm : 10 * m + digitVal c < Decimal.limit := Nat.lt_of_le_of_lt (le_ofDigitsFrom ..) h
    rw [readPlaces, if_pos ⟨by omega, hm⟩, ih h (by omega)]
    congr 2
    omega

theorem ofDigits_zeroPadded (width n : Nat) : ofDigits (zeroPadded width n) = n := by
  have zeros (k : Nat) : ofDigitsFrom 0 (List.replicate k '0') = 0 := by
    induction k with
    | zero => rfl
    | succ k ih =>
      rw [List.replicate_succ, ofDigitsFrom_cons]
      exact ih
  rw [zeroPadded, padLeft, ofDigits, ofDigitsFrom_append, zeros, ← ofDigits, ofDigits_digits]

theorem isDigit_of_mem_zeroPadded {width n : Nat} {c : Char} (h : c ∈ zeroPadded width n) :
    c.isDigit = true := by
  rcases List.mem_append.1 h with h | h
  · rw [(List.mem_replicate.1 h).2]
    rfl
  · exact isDigit_of_mem_digits h

namespace Decimal

def whole (a : Decimal) : List Char := a.allDigits.take (a.allDigits.length - a.scale)

def places (a : Decimal) : List Char := a.allDigits.drop (a.allDigits.length - a.scale)

variable (a : Decimal)

theorem scale_lt_length : a.scale < a.allDigits.length := by
  rw [allDigits, zeroPadded, padLeft, List.length_append, List.length_replicate]
  omega

theorem toChars_eq (h : a.negative = false) :
    a.toChars = a.whole ++ if a.scale = 0 then [] else '.' :: a.places := by
  rw [toChars, h]
  rfl

theorem whole_append_places : a.whole ++ a.places = a.allDigits := List.take_append_drop ..

theorem isDigit_of_mem_whole : ∀ c ∈ a.whole, c.isDigit = true :=
  fun _ h => isDigit_of_mem_zeroPadded (List.mem_of_mem_take h)

theorem isDigit_of_mem_places : ∀ c ∈ a.places, c.isDigit = true :=
  fun _ h => isDigit_of_mem_zeroPadded (List.mem_of_mem_drop h)

theorem all_places : a.places.all Char.isDigit = true := List.all_eq_true.2 a.isDigit_of_mem_places

theorem length_places : a.places.length = a.scale := by
  have := a.scale_lt_length
  rw [places, List.length_drop]
  omega

theorem whole_ne_nil : a.whole ≠ [] := by
  have := a.scale_lt_length
  rw [whole, Ne, List.take_eq_nil_iff, ← List.length_eq_zero_iff]
  omega

theorem ofDigitsFrom_whole_places :
    ofDigitsFrom (ofDigitsFrom 0 a.whole) a.places = a.mantissa := by
  rw [← ofDigitsFrom_append, whole_append_places]
  exact ofDigits_zeroPadded ..

theorem make?_eq (h : a.negative = false) : make? false a.mantissa a.scale = some a := by
  rw [make?, dif_pos ⟨a.mantissa_lt, a.scale_le⟩]
  obtain ⟨negative, mantissa, scale, _, _⟩ := a
  cases h
  rfl

theorem ofDigits?_toChars (h : a.negative = false) : ofDigits? a.toChars = some a := by
  have hall := a.ofDigitsFrom_whole_places
  have hlt : ofDigitsFrom (ofDigitsFrom 0 a.whole) a.places < limit := hall ▸ a.mantissa_lt
  have hw : readWhole 0 a.whole = some (ofDigitsFrom 0 a.whole) :=
    readWhole_eq (Nat.lt_of_le_of_lt (le_ofDigitsFrom ..) hlt)
  have hne : a.whole.isEmpty = false := by
    rw [List.isEmpty_eq_false_iff]
    exact a.whole_ne_nil
  have hdig := a.isDigit_of_mem_whole
  rw [toChars_eq a h]
  by_cases hs : a.scale = 0
  · have hp : a.places = [] := List.eq_nil_of_length_eq_zero (a.length_places.trans hs)
    rw [hp, ofDigitsFrom_nil] at hall
    rw [if_pos hs, ofDigits?, List.takeWhile_append_of_pos hdig,
      List.dropWhile_append_of_pos hdig, List.takeWhile_nil, List.append_nil, hne, hw, hall]
    have hm := a.make?_eq h
    rwa [hs] at hm
  · have hr : readPlaces (ofDigitsFrom 0 a.whole) 0 a.places = some (a.mantissa, a.scale) := by
      rw [readPlaces_eq hlt (by rw [length_places, Nat.zero_add]; exact a.scale_le), hall,
        length_places, Nat.zero_add]
    rw [if_neg hs, ofDigits?, takeWhile_digits_point hdig, dropWhile_digits_point hdig]
    simp only [a.all_places, hne, hw, hr, Bool.false_and, Bool.not_false, Bool.and_self, if_true,
      Option.bind_some]
    exact a.make?_eq h

/-! ## signs -/

def spelled (c : Char) (a : Decimal) : List Char :=
  a.whole ++ if a.scale = 0 then [] else c :: a.places

def written (c : Char) (a : Decimal) : List Char :=
  (if a.negative then ['-'] else []) ++ a.spelled c

def abs (a : Decimal) : Decimal := { a with negative := false }

theorem toChars_eq_written : a.toChars = a.written '.' := List.append_assoc ..

theorem toChars_abs : a.abs.toChars = a.spelled '.' := a.abs.toChars_eq rfl

theorem spelled_eq_cons (c : Char) : ∃ d ds, a.spelled c = d :: ds ∧ d.isDigit = true := by
  obtain ⟨d, ds, hw⟩ := List.exists_cons_of_ne_nil a.whole_ne_nil
  refine ⟨d, ds ++ if a.scale = 0 then [] else c :: a.places, ?_, ?_⟩
  · rw [spelled, hw]
    rfl
  · exact a.isDigit_of_mem_whole d (by rw [hw]; exact List.mem_cons_self ..)

theorem ofSignedText?_signed (negative : Bool) {d : Char} (hd : d.isDigit = true)
    (ds : List Char) :
    ofSignedText? ((if negative then ['-'] else []) ++ d :: ds) =
      (ofDigits? (d :: ds)).map fun a => if negative then a.minus else a := by
  cases negative with
  | true => rfl
  | false =>
    rw [if_neg Bool.false_ne_true, List.nil_append, ofSignedText?.eq_def]
    -- a digit is no sign
    split
    · next h =>
      cases h
      cases hd
    · next h =>
      cases h
      cases hd
    · exact Option.map_id'.symm

theorem minus_abs : (if a.negative then a.abs.minus else a.abs) = if a.isZero then a.abs else a := by
  obtain ⟨negative, mantissa, scale, _, _⟩ := a
  cases negative with
  | true => rfl
  | false => exact (ite_self _).symm

/-- the display text is read as the decimal, but for the sign of a zero -/
theorem ofText?_toText : ofText? a.toText = some (if a.isZero then a.abs else a) := by
  obtain ⟨d, ds, hcons, hd⟩ := a.spelled_eq_cons '.'
  have habs : ofDigits? (d :: ds) = some a.abs := by
    rw [← hcons, ← toChars_abs]
    exact a.abs.ofDigits?_toChars rfl
  rw [ofText?, toList_toText, toChars_eq_written, written, hcons, ofSignedText?_signed _ hd, habs,
    Option.map_some, minus_abs]

theorem dropWhile_spelled {c : Char} (hc : c.isDigit = false) :
    (a.spelled c).dropWhile Char.isDigit = if a.scale = 0 then [] else c :: a.places := by
  rw [spelled, List.dropWhile_append_of_pos a.isDigit_of_mem_whole]
  split
  · rfl
  · rw [List.dropWhile_cons_of_neg (by rw [hc]; exact Bool.false_ne_true)]

/-- is the rest behind whole digits nothing, or a point and places -/
def isPointed : List Char → Bool
  | [] => true
  | '.' :: ps => !ps.isEmpty && ps.all Char.isDigit
  | _ => false

theorem isDecimalText_signed (negative : Bool) {d : Char} (hd : d.isDigit = true)
    (ds : List Char) :
    isDecimalText (String.ofList ((if negative then ['-'] else []) ++ d :: ds)) =
      isPointed ((d :: ds).dropWhile Char.isDigit) := by
  have hne : ((d :: ds).takeWhile Char.isDigit).isEmpty = false := by
    rw [List.takeWhile_cons_of_pos hd]
    rfl
  rw [isDecimalText, String.toList_ofList]
  cases negative with
  | true =>
    show (!((d :: ds).takeWhile Char.isDigit).isEmpty &&
      isPointed ((d :: ds).dropWhile Char.isDigit)) = _
    rw [hne]
    rfl
  | false =>
    rw [if_neg Bool.false_ne_true, List.nil_append]
    -- a digit is no sign
    split
    · next h =>
      cases h
      cases hd
    · next h =>
      cases h
      cases hd
    · rw [hne]
      rfl

theorem isPointed_places {c : Char} (hs : a.scale ≠ 0) :
    isPointed (c :: a.places) = true ↔ c = '.' := by
  have hplaces : a.places.isEmpty = false := by
    rw [List.isEmpty_eq_false_iff, Ne, ← List.length_eq_zero_iff, length_places]
    exact hs
  by_cases hc : c = '.'
  · rw [hc, isPointed, hplaces, a.all_places]
    exact iff_of_true rfl rfl
  · rw [isPointed.eq_def]
    refine iff_of_false ?_ hc
    split
    · next h => cases h
    · next h => exact absurd (List.cons.inj h).1 hc
    · exact Bool.false_ne_true

/-- written digits are a decimal text if a point, or nothing, is between them -/
theorem isDecimalText_written {c : Char} (hc : c.isDigit = false) :
    isDecimalText (String.ofList (a.written c)) = true ↔ c = '.' ∨ a.scale = 0 := by
  obtain ⟨d, ds, hcons, hd⟩ := a.spelled_eq_cons c
  rw [written, hcons, isDecimalText_signed _ hd, ← hcons, dropWhile_spelled a hc]
  by_cases hs : a.scale = 0
  · rw [if_pos hs]
    exact iff_of_true rfl (.inr hs)
  · rw [if_neg hs, isPointed_places a hs, or_iff_left hs]

end Decimal

end ExprLang
