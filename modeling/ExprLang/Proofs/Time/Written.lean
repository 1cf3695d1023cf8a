import ExprLang.Proofs.Decimal.Reading
import ExprLang.Proofs.Text.Digits
import ExprLang.Proofs.Token.Lexeme
import ExprLang.Time.DateTimeText

/-!
# Written fields are read back

A number below `10^width` is filled up to exactly `width` digits (`length_zeroPadded`), so where it
ends does not depend on what follows it.  `numeral?_zeroPadded`, `yearField?_yearChars` and
`read_fractionChars` read the fields of a date-time text back in front of any rest.
-/

namespace ExprLang

open Text

/-! ## digits of a width -/

theorem length_zeroPadded {n w : Nat} (h : n < 10 ^ (w + 1)) :
    (zeroPadded (w + 1) n).length = w + 1 := by
  have := length_digits_le_iff.2 h
  rw [zeroPadded, length_padLeft]
  omega

theorem zeroPadded_eq_cons (w n : Nat) : ∃ d ds, zeroPadded w n = d :: ds ∧ d.isDigit = true := by
  have hne : zeroPadded w n ≠ [] := fun h => digits_ne_nil n (List.append_eq_nil_iff.1 h).2
  obtain ⟨d, ds, hd⟩ := List.exists_cons_of_ne_nil hne
  exact ⟨d, ds, hd, isDigit_of_mem_zeroPadded (hd ▸ List.mem_cons_self)⟩

theorem trimStart_digit {d : Char} (hd : d.isDigit = true) (cs : List Char) :
    trimStart (d :: cs) = d :: cs := by
  rw [trimStart_cons, isDigit_not_blank hd]
  rfl

theorem trimStart_zeroPadded (w n : Nat) (rest : List Char) :
    trimStart (zeroPadded w n ++ rest) = zeroPadded w n ++ rest := by
  obtain ⟨d, ds, hd, hdig⟩ := zeroPadded_eq_cons w n
  rw [hd, List.cons_append, trimStart_digit hdig]

theorem zeroPadded_two {n : Nat} (h : n < 100) :
    zeroPadded 2 n = [digitChar (n / 10), digitChar (n % 10)] := by
  rw [zeroPadded, padLeft]
  by_cases hn : n < 10
  · rw [digits_of_lt hn, Nat.div_eq_of_lt hn, Nat.mod_eq_of_lt hn]
    rfl
  · rw [digits_of_ge (by omega), digits_of_lt (n := n / 10) (by omega)]
    rfl

theorem twoPlaces_zero {n : Nat} (h : n < 100) : twoPlaces .zero n = zeroPadded 2 n := by
  rw [zeroPadded_two h, twoPlaces]
  by_cases hn : n / 10 = 0
  · rw [if_pos hn, hn]
    rfl
  · rw [if_neg hn]
    rfl

/-! ## reading -/

theorem takeWhile_isDigit {ds : List Char} (hd : ∀ d ∈ ds, d.isDigit = true) (rest : List Char)
    (hr : ∀ c, rest.head? = some c → c.isDigit = false) :
    (ds ++ rest).takeWhile Char.isDigit = ds ∧ (ds ++ rest).dropWhile Char.isDigit = rest := by
  have ht : rest.takeWhile Char.isDigit = [] ∧ rest.dropWhile Char.isDigit = rest := by
    cases rest with
    | nil => exact ⟨rfl, rfl⟩
    | cons c rest =>
      have hc : ¬ c.isDigit = true := by
        rw [hr c rfl]
        exact Bool.false_ne_true
      exact ⟨List.takeWhile_cons_of_neg hc, List.dropWhile_cons_of_neg hc⟩
  rw [List.takeWhile_append_of_pos hd, List.dropWhile_append_of_pos hd, ht.1, List.append_nil]
  exact ⟨rfl, ht.2⟩

theorem takeWhile_allDigits {ds : List Char} (hd : ∀ d ∈ ds, d.isDigit = true) :
    ds.takeWhile Char.isDigit = ds ∧ ds.dropWhile Char.isDigit = [] := by
  have h := takeWhile_isDigit hd [] nofun
  rwa [List.append_nil] at h

/-- digits up to the width of a field are its value, whatever follows them -/
theorem numeral?_of_length {ds : List Char} (hd : ∀ d ∈ ds, d.isDigit = true) (hne : ds ≠ [])
    (rest : List Char) : numeral? ds.length (ds ++ rest) = some (ofDigits ds, rest) := by
  have ht : ((ds ++ rest).take ds.length).takeWhile Char.isDigit = ds := by
    rw [List.take_left, (takeWhile_allDigits hd).1]
  have he : ds.isEmpty = false := List.isEmpty_eq_false_iff.2 hne
  rw [numeral?, ht, he, List.drop_left]
  rfl

/-- digits in front of something else are the value of a field without a width -/
theorem numeral?_of_rest {ds : List Char} (hd : ∀ d ∈ ds, d.isDigit = true) (hne : ds ≠ [])
    (rest : List Char) (hr : ∀ c, rest.head? = some c → c.isDigit = false) :
    numeral? (ds ++ rest).length (ds ++ rest) = some (ofDigits ds, rest) := by
  have he : ds.isEmpty = false := List.isEmpty_eq_false_iff.2 hne
  rw [numeral?, List.take_length, (takeWhile_isDigit hd rest hr).1, he, List.drop_left]
  rfl

theorem zeroPadded_ne_nil (w n : Nat) : zeroPadded w n ≠ [] := by
  obtain ⟨d, ds, hd, -⟩ := zeroPadded_eq_cons w n
  rw [hd]
  exact List.cons_ne_nil d ds

theorem numeral?_zeroPadded {n w : Nat} (h : n < 10 ^ (w + 1)) (rest : List Char) :
    numeral? (w + 1) (zeroPadded (w + 1) n ++ rest) = some (n, rest) := by
  have hl := length_zeroPadded h
  have hn := numeral?_of_length (fun _ => isDigit_of_mem_zeroPadded)
    (zeroPadded_ne_nil (w + 1) n) rest
  rwa [hl, ofDigits_zeroPadded] at hn

theorem numeral?_twoPlaces {n : Nat} (h : n < 100) (rest : List Char) :
    numeral? 2 (trimStart (twoPlaces .zero n ++ rest)) = some (n, rest) := by
  rw [twoPlaces_zero h, trimStart_zeroPadded]
  exact numeral?_zeroPadded (w := 1) h rest

theorem yearChars_of_short {y : Int} (h : 0 ≤ y ∧ y < 10000) :
    yearChars .zero y = zeroPadded 4 y.natAbs := by
  rw [yearChars, if_pos h, filled, if_neg (by omega), if_neg Bool.false_ne_true]
  rfl

theorem yearChars_of_long {y : Int} (h : ¬ (0 ≤ y ∧ y < 10000)) :
    yearChars .zero y = (if y < 0 then '-' else '+') :: zeroPadded 4 y.natAbs := by
  rw [yearChars, if_neg h, filled]
  by_cases hy : y < 0
  · rw [if_pos hy, if_pos hy]
    rfl
  · rw [if_neg hy, if_neg hy]
    rfl

theorem yearChars_eq_cons (y : Int) :
    ∃ c cs, yearChars .zero y = c :: cs ∧ isBlank c = false := by
  by_cases h : 0 ≤ y ∧ y < 10000
  · obtain ⟨d, ds, hd, hdig⟩ := zeroPadded_eq_cons 4 y.natAbs
    exact ⟨d, ds, (yearChars_of_short h).trans hd, isDigit_not_blank hdig⟩
  · refine ⟨_, _, yearChars_of_long h, ?_⟩
    split <;> decide

/-- a year ends in front of the character that divides it from the month -/
theorem yearField?_yearChars (y : Int) (rest : List Char) :
    yearField? (trimStart (yearChars .zero y ++ '-' :: rest)) = some (y, '-' :: rest) := by
  by_cases h : 0 ≤ y ∧ y < 10000
  · obtain ⟨d, ds, hcons, hd⟩ := zeroPadded_eq_cons 4 y.natAbs
    have hfour := numeral?_zeroPadded (n := y.natAbs) (w := 3) (by omega) ('-' :: rest)
    rw [yearChars_of_short h, trimStart_zeroPadded]
    rw [hcons, List.cons_append] at hfour ⊢
    rw [yearField?.eq_def]
    -- a digit is no sign
    split
    · next he =>
      cases he
      cases hd
    · next he =>
      cases he
      cases hd
    · rw [hfour]
      show some ((y.natAbs : Int), '-' :: rest) = _
      rw [Int.natAbs_of_nonneg h.1]
  · have hany := numeral?_of_rest (fun _ => isDigit_of_mem_zeroPadded)
      (zeroPadded_ne_nil 4 y.natAbs) ('-' :: rest) (by
        intro c hc
        cases hc
        rfl)
    rw [ofDigits_zeroPadded] at hany
    rw [yearChars_of_long h, List.cons_append, trimStart_cons]
    by_cases hy : y < 0
    · rw [if_pos hy, if_neg (by decide), yearField?, hany]
      show some (-(y.natAbs : Int), '-' :: rest) = _
      rw [Int.ofNat_natAbs_of_nonpos (by omega), Int.neg_neg]
    · rw [if_neg hy, if_neg (by decide), yearField?, hany]
      show some ((y.natAbs : Int), '-' :: rest) = _
      rw [Int.natAbs_of_nonneg (by omega)]

theorem isDigit_of_mem_twoPlaces {n : Nat} (h : n < 100) {c : Char}
    (hc : c ∈ twoPlaces .zero n) : c.isDigit = true := by
  rw [twoPlaces_zero h] at hc
  exact isDigit_of_mem_zeroPadded hc

theorem not_blank_of_mem_fractionChars {n : Nat} : ∀ c ∈ fractionChars n, isBlank c = false := by
  have behindPoint (w m : Nat) : ∀ c ∈ '.' :: zeroPadded w m, isBlank c = false :=
    List.forall_mem_cons.2
      ⟨by decide, fun _ hc => isDigit_not_blank (isDigit_of_mem_zeroPadded hc)⟩
  unfold fractionChars
  split
  · exact List.forall_mem_nil _
  · split
    · exact behindPoint _ _
    · split
      · exact behindPoint _ _
      · exact behindPoint _ _

theorem fractionField?_zeroPadded {w k n : Nat} (h : n < 10 ^ (w + 1)) (hk : w + 1 + k = 9) :
    fractionField? (zeroPadded (w + 1) n) = some (n * 10 ^ k, []) := by
  have hd : ∀ d ∈ zeroPadded (w + 1) n, d.isDigit = true := fun _ => isDigit_of_mem_zeroPadded
  have hl := length_zeroPadded h
  have he : (zeroPadded (w + 1) n).isEmpty = false :=
    List.isEmpty_eq_false_iff.2 (zeroPadded_ne_nil _ n)
  have hnine : (zeroPadded (w + 1) n).take 9 = zeroPadded (w + 1) n :=
    List.take_of_length_le (by omega)
  have hwidth : 9 - (w + 1) = k := by omega
  rw [fractionField?, (takeWhile_allDigits hd).1, (takeWhile_allDigits hd).2, he]
  dsimp only
  rw [hnine, ofDigits_zeroPadded, hl, hwidth]
  rfl

/-- the shortest exact fraction is read as the whole of it -/
theorem read_fractionChars {f : DateTimeFields} (hf : f.nano = 0) {n : Nat} (h : n < 1000000000) :
    LayoutPart.read f (fractionChars n) .fraction = some ({ f with nano := n }, []) := by
  have behindPoint {w k m : Nat} (hm : m < 10 ^ (w + 1)) (hk : w + 1 + k = 9)
      (hn : m * 10 ^ k = n) :
      LayoutPart.read f ('.' :: zeroPadded (w + 1) m) .fraction =
        some ({ f with nano := n }, []) := by
    show (fractionField? (zeroPadded (w + 1) m)).map _ = _
    rw [fractionField?_zeroPadded hm hk, hn]
    rfl
  unfold fractionChars
  split
  · next h0 =>
    subst h0
    obtain ⟨year, month, day, hour, minute, second, nano⟩ := f
    cases hf
    rfl
  · split
    · exact behindPoint (w := 2) (k := 6) (by omega) rfl (by omega)
    · split
      · exact behindPoint (w := 5) (k := 3) (by omega) rfl (by omega)
      · exact behindPoint (w := 8) (k := 0) (by omega) rfl (by omega)

end ExprLang
