import ExprLang.Proofs.Member.Position
import ExprLang.Proofs.Text.Search

/-!
# Searching and replacing in texts

* `Expr.startsAt t p j`            the expression `t.Substring(j).StartsWith(p)`;
* `Expr.replaceOnce t p w`         `t.Substring(0, r) + w + t.Substring(r + p.Length).Replace(p, w)`
                                   with `t.IndexOf(p)` for `r`;
* `Evaluator.FindsLeast ev c t p l`
                                   `t.IndexOf(p)` is the least position in a text of length `l` from
                                   which the text starts with `p`, or else minus one;
* `Evaluator.SearchesText ev c t p w s x`
                                   what the members of the text `s` say about the pattern `x`, and
                                   about `w` in its place, is of one search.

The members that search are about the characters of both texts, and so is what `Text.find?` and
`Text.replace` are known for.  Here a position comes back as a number, and numbers cut the text into
parts again: `gives_suffix`, `gives_prefix`.
-/

namespace ExprLang

open Value

/-! ## positions as values -/

section
variable {r j : Nat}

theorem Value.count_inj (hr : r < Decimal.limit) (hj : j < Decimal.limit) :
    Value.count r = .count j ↔ r = j := by
  constructor
  · intro h
    have hd : Decimal.ofNat r = Decimal.ofNat j := Value.number.inj h
    have hc := Decimal.isCount_ofNat hr
    rw [hd] at hc
    exact hc.unique (Decimal.isCount_ofNat hj)
  · rintro rfl
    rfl

theorem Value.count_ne_minus_one (hr : r < Decimal.limit) : Value.count r ≠ .int (-1) := by
  intro h
  have hd : Decimal.ofNat r = Decimal.ofInt (-1) := Value.number.inj h
  have hsign := (Decimal.isCount_ofNat hr).sign
  rw [hd] at hsign
  cases hsign

variable {o : Option Nat} (ho : ∀ r, o = some r → r < Decimal.limit)
include ho

theorem positionValue_eq_minus_one : positionValue o = .int (-1) ↔ o = none := by
  cases o with
  | none => exact iff_of_true rfl rfl
  | some r =>
    refine iff_of_false (count_ne_minus_one (ho r rfl)) fun h => ?_
    cases h

theorem positionValue_eq_count (hj : j < Decimal.limit) :
    positionValue o = .count j ↔ o = some j := by
  cases o with
  | none =>
    refine iff_of_false (fun h => count_ne_minus_one hj h.symm) fun h => ?_
    cases h
  | some r =>
    rw [Option.some.injEq]
    exact count_inj (ho r rfl) hj

end

theorem callReplace_eq (s x y : String) : callReplace s [.text x, .text y] =
    if x.isEmpty then .error .emptyReplaced
    else .ok (.text (String.ofList (Text.replace x.toList y.toList s.toList))) := by
  show (if x.isEmpty then _ else _) = _
  split <;> rfl

/-- what is found in a text in memory is a number -/
theorem find?_lt_limit {s x : String} (hs : Addressable (textLength s)) :
    ∀ r, Text.find? x.toList s.toList = some r → r < Decimal.limit := fun _ h =>
  hs.lt_limit (Nat.le_of_add_right_le (Text.find?_le h))

def Expr.startsAt (t p : Expr) (j : Nat) : Expr :=
  (t.invoke "Substring" [.constant (.count j)]).invoke "StartsWith" [p]

def Expr.replaceOnce (t p w : Expr) : Expr :=
  .binary
    (.binary (t.invoke "Substring" [.constant (.number .zero), t.invoke "IndexOf" [p]]) .add w)
    .add ((t.invoke "Substring"
      [.binary (t.invoke "IndexOf" [p]) .add (.member p "Length")]).invoke "Replace" [p, w])

namespace Evaluator

variable {ev : Evaluator} {c : Context} {t p w q : Expr} {s x y : String} {n : Decimal} {j : Nat}

def FindsLeast (ev : Evaluator) (c : Context) (t p : Expr) (length : Nat) : Prop :=
  (∃ r ≤ length, ev.Gives c (t.invoke "IndexOf" [p]) (.ok (.count r)) ∧
      ev.Gives c (t.startsAt p r) (.ok (.boolean true)) ∧
      ∀ j < r, ev.Gives c (t.startsAt p j) (.ok (.boolean false))) ∨
    (ev.Gives c (t.invoke "IndexOf" [p]) (.ok (.int (-1))) ∧
      ∀ j ≤ length, ev.Gives c (t.startsAt p j) (.ok (.boolean false)))

structure SearchesText (ev : Evaluator) (c : Context) (t p w : Expr) (s x : String) : Prop where
  indexOf : ev.FindsLeast c t p (textLength s)
  contains : ∃ b, ev.Gives c (t.invoke "Contains" [p]) (.ok (.boolean b)) ∧
    (b = true ↔ ¬ ev.Gives c (t.invoke "IndexOf" [p]) (.ok (.int (-1))))
  startsWith : ∃ b, ev.Gives c (t.invoke "StartsWith" [p]) (.ok (.boolean b)) ∧
    (b = true ↔ ev.Gives c (t.invoke "IndexOf" [p]) (.ok (.count 0)))
  /-- the last `p.Length` characters, `t.Substring(t.Length - p.Length)`, are the pattern -/
  endsWith : ∃ b, ev.Gives c (t.invoke "EndsWith" [p]) (.ok (.boolean b)) ∧
    (b = true ↔ textLength x ≤ textLength s ∧ ev.Gives c (t.invoke "Substring"
      [.binary (.member t "Length") .subtract (.member p "Length")]) (.ok (.text x)))
  absent : x ≠ "" → ev.Gives c (t.invoke "Contains" [p]) (.ok (.boolean false)) →
    ev.Gives c (t.invoke "Replace" [p, w]) (.ok (.text s))
  /-- replacing is replacing the first occurrence, and then in what follows it -/
  found : x ≠ "" → ev.Gives c (t.invoke "Contains" [p]) (.ok (.boolean true)) →
    ∃ v, ev.Gives c (t.invoke "Replace" [p, w]) (.ok v) ∧
      ev.Gives c (t.replaceOnce p w) (.ok v)
  self : x ≠ "" → ev.Gives c (t.invoke "Replace" [p, p]) (.ok (.text s))
  empty : x = "" → ev.Gives c (t.invoke "Replace" [p, w])
    (.error (.hostFailed "Replace" (.arguments "Replace" .emptyReplaced)))

section
variable {functions : Functions} (hh : ev.host = .standard functions)
  (ht : ev.Gives c t (.ok (.text s)))
include hh ht

section
variable (hs : Addressable (textLength s)) (hq : ev.Gives c q (.ok (.number n)))
  (hn : n.IsCount j) (hj : j ≤ textLength s)
include hs hq hn hj

theorem gives_suffix :
    ev.Gives c (t.invoke "Substring" [q]) (.ok (.text (String.ofList (s.toList.drop j)))) := by
  exact (gives_from_iff hh ht hq).2 (callSubstring_one_eq_ok.2 ⟨j, hs.toIndex? hj hn, hj, rfl⟩)

theorem gives_prefix : ev.Gives c (t.invoke "Substring" [.constant (.number .zero), q])
    (.ok (.text (String.ofList (s.toList.take j)))) := by
  refine (gives_part_iff hh ht (gives_constant (.number .zero)) hq).2
    (callSubstring_two_eq_ok.2 ⟨0, j, by decide, hs.toIndex? hj hn, by omega, ?_⟩)
  rw [List.drop_zero]

end

section
variable (hp : ev.Gives c p (.ok (.text x)))
include hp

theorem gives_startsWith :
    ev.Gives c (t.invoke "StartsWith" [p]) (.ok (.boolean (x.toList.isPrefixOf s.toList))) :=
  (gives_answer_iff hh ht (comes_one hp) rfl).2 rfl

theorem gives_endsWith :
    ev.Gives c (t.invoke "EndsWith" [p]) (.ok (.boolean (x.toList.isSuffixOf s.toList))) :=
  (gives_answer_iff hh ht (comes_one hp) rfl).2 rfl

theorem gives_find :
    ev.Gives c (t.invoke "IndexOf" [p]) (.ok (positionValue (Text.find? x.toList s.toList))) :=
  (gives_answer_iff hh ht (comes_one hp) rfl).2 rfl

theorem gives_occurs :
    ev.Gives c (t.invoke "Contains" [p]) (.ok (.boolean (Text.contains x.toList s.toList))) :=
  (gives_answer_iff hh ht (comes_one hp) rfl).2 rfl

theorem gives_occurs_iff {b : Bool} : ev.Gives c (t.invoke "Contains" [p]) (.ok (.boolean b)) ↔
    (Text.find? x.toList s.toList).isSome = b := by
  rw [gives_iff (gives_occurs hh ht hp), Except.ok.injEq, Value.boolean.injEq, Text.contains]

theorem gives_replace (hw : ev.Gives c w (.ok (.text y))) : ev.Gives c (t.invoke "Replace" [p, w])
    (Dispatch.answered "Replace" (callReplace s [.text x, .text y])) :=
  gives_answer hh ht (comes_two hp hw) rfl

theorem gives_replaced (hw : ev.Gives c w (.ok (.text y))) (hx : x ≠ "") :
    ev.Gives c (t.invoke "Replace" [p, w])
      (.ok (.text (String.ofList (Text.replace x.toList y.toList s.toList)))) := by
  have h := gives_replace hh ht hp hw
  rw [callReplace_eq, if_neg (by rwa [String.isEmpty_iff])] at h
  exact h

theorem gives_no_replacement (hw : ev.Gives c w (.ok (.text y))) (hx : x = "") :
    ev.Gives c (t.invoke "Replace" [p, w])
      (.error (.hostFailed "Replace" (.arguments "Replace" .emptyReplaced))) := by
  have h := gives_replace hh ht hp hw
  rw [callReplace_eq, if_pos (String.isEmpty_iff.2 hx)] at h
  exact h

theorem gives_startsAt (hs : Addressable (textLength s)) (hj : j ≤ textLength s) :
    ev.Gives c (t.startsAt p j) (.ok (.boolean (x.toList.isPrefixOf (s.toList.drop j)))) := by
  have hrest := gives_suffix hh ht hs (gives_constant (.count j)) (hs.isCount hj) hj
  have h := gives_startsWith hh hrest hp
  rwa [String.toList_ofList] at h

theorem findsLeast (hs : Addressable (textLength s)) : ev.FindsLeast c t p (textLength s) := by
  have hfind := gives_find hh ht hp
  cases h : Text.find? x.toList s.toList with
  | some r =>
    rw [h] at hfind
    obtain ⟨hr, hleast⟩ := Text.find?_eq_some h
    have hle : r ≤ textLength s := Nat.le_of_add_right_le (Text.find?_le h)
    refine .inl ⟨r, hle, hfind, ?_, fun j hj => ?_⟩
    · rw [← hr]
      exact gives_startsAt hh ht hp hs hle
    · rw [← hleast j hj]
      exact gives_startsAt hh ht hp hs (by omega)
  | none =>
    rw [h] at hfind
    refine .inr ⟨hfind, fun j hj => ?_⟩
    rw [← Text.find?_eq_none h j]
    exact gives_startsAt hh ht hp hs hj

/-- the last characters, as many as the pattern has -/
theorem gives_ending_iff (hs : Addressable (textLength s)) (hx : textLength x ≤ textLength s) :
    ev.Gives c (t.invoke "Substring"
      [.binary (.member t "Length") .subtract (.member p "Length")]) (.ok (.text x)) ↔
    s.toList.drop (textLength s - textLength x) = x.toList := by
  obtain ⟨d, hd, hcount⟩ := (hs.isCount (Nat.le_refl _)).sub (hs.isCount hx) hx
  have hdiff := gives_minus (gives_textLength hh ht) (gives_textLength hh hp) hd
  rw [gives_iff (gives_suffix hh ht hs hdiff hcount (Nat.sub_le ..)), Except.ok.injEq,
    Value.text.injEq]
  refine ⟨fun h => ?_, fun h => ?_⟩
  · rw [← String.toList_ofList (l := s.toList.drop _), h]
  · rw [h, String.ofList_toList]

theorem gives_replaced_once (hs : Addressable (textLength s)) (hw : ev.Gives c w (.ok (.text y)))
    (hx : x ≠ "") {r : Nat} (h : Text.find? x.toList s.toList = some r) :
    ev.Gives c (t.replaceOnce p w)
      (.ok (.text (String.ofList (Text.replace x.toList y.toList s.toList)))) := by
  have hle : r + textLength x ≤ textLength s := Text.find?_le h
  have hr : (Decimal.ofNat r).IsCount r := hs.isCount (by omega)
  have hindex : ev.Gives c (t.invoke "IndexOf" [p]) (.ok (.count r)) := by
    have hfind := gives_find hh ht hp
    rwa [h] at hfind
  obtain ⟨d, hd, hcount⟩ := hr.add (hs.isCount (a := textLength x) (by omega)) (hs.lt_limit hle)
  have hsum := gives_plus hindex (gives_textLength hh hp) hd
  have hfirst := gives_prefix hh ht hs hindex hr (by omega)
  have hrest := gives_replaced hh (gives_suffix hh ht hs hsum hcount hle) hp hw hx
  have hall := gives_concat (gives_concat hfirst hw) hrest
  rw [String.toList_ofList, ← String.ofList_toList (s := y), ← String.ofList_append,
    ← String.ofList_append, String.toList_ofList] at hall
  rwa [Text.replace_of_found (by rwa [Ne, String.toList_eq_nil_iff]) h]

end

end

/-- searching and replacing in a text are about one search for the pattern -/
theorem searches_text {ev : Evaluator} {functions : Functions} (hh : ev.host = .standard functions)
    (c : Context) {t p w : Expr} {s x y : String} (ht : ev.Gives c t (.ok (.text s)))
    (hp : ev.Gives c p (.ok (.text x))) (hw : ev.Gives c w (.ok (.text y)))
    (hs : Addressable (textLength s)) : ev.SearchesText c t p w s x where
  indexOf := findsLeast hh ht hp hs
  contains := by
    refine ⟨_, gives_occurs hh ht hp, ?_⟩
    rw [gives_iff (gives_find hh ht hp), Except.ok.injEq,
      positionValue_eq_minus_one (find?_lt_limit hs), Text.contains, Option.isSome_iff_ne_none]
  startsWith := by
    refine ⟨_, gives_startsWith hh ht hp, ?_⟩
    rw [gives_iff (gives_find hh ht hp), Except.ok.injEq,
      positionValue_eq_count (find?_lt_limit hs) (by decide), Text.isPrefixOf_iff_find?]
  endsWith := by
    refine ⟨_, gives_endsWith hh ht hp, ?_⟩
    rw [Text.isSuffixOf_iff]
    refine and_congr_right fun hx => ?_
    exact (gives_ending_iff hh ht hp hs hx).symm
  absent hx h := by
    have hnone := Option.isSome_eq_false_iff.1 ((gives_occurs_iff hh ht hp).1 h)
    rw [Option.isNone_iff_eq_none] at hnone
    have hr := gives_replaced hh ht hp hw hx
    rwa [Text.replace_of_absent (by rwa [Ne, String.toList_eq_nil_iff]) hnone,
      String.ofList_toList] at hr
  found hx h := by
    obtain ⟨r, hr⟩ := Option.isSome_iff_exists.1 ((gives_occurs_iff hh ht hp).1 h)
    exact ⟨_, gives_replaced hh ht hp hw hx, gives_replaced_once hh ht hp hs hw hx hr⟩
  self hx := by
    have hr := gives_replaced hh ht hp hp hx
    rwa [Text.replace_self (by rwa [Ne, String.toList_eq_nil_iff]), String.ofList_toList] at hr
  empty hx := gives_no_replacement hh ht hp hw hx

/-- of two occurrences that overlap the first one is replaced, and no other one is made by it -/
theorem searches_text_overlapping :
    let ev : Evaluator := ⟨{}, .standard fun _ => none⟩
    let t : Expr := .constant (.text "éaaab")
    let p : Expr := .constant (.text "aa")
    let w : Expr := .constant (.text "aac")
    Addressable (textLength "éaaab") ∧
      ev.Gives .empty (t.invoke "Replace" [p, w]) (.ok (.text "éaacab")) ∧
      ev.Gives .empty (t.replaceOnce p w) (.ok (.text "éaacab")) := by
  intro ev t p w
  have hh : ev.host = .standard fun _ => none := rfl
  have hs : Addressable (textLength "éaaab") := by
    unfold Addressable
    decide
  have ht : ev.Gives .empty t (.ok (.text "éaaab")) := gives_constant _
  have hp : ev.Gives .empty p (.ok (.text "aa")) := gives_constant _
  have hw : ev.Gives .empty w (.ok (.text "aac")) := gives_constant _
  have hcontains : ev.Gives .empty (t.invoke "Contains" [p]) (.ok (.boolean true)) :=
    gives_occurs hh ht hp
  obtain ⟨v, hv, hall⟩ := (searches_text hh .empty ht hp hw hs).found (by decide) hcontains
  have hreplaced := gives_replaced hh ht hp hw (by decide)
  have htext : String.ofList (Text.replace "aa".toList "aac".toList "éaaab".toList) = "éaacab" := by
    decide
  rw [htext] at hreplaced
  cases (gives_iff hv).1 hreplaced
  exact ⟨hs, hreplaced, hall⟩

end Evaluator

end ExprLang
