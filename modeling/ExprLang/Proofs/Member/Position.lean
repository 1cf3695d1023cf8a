import ExprLang.Proofs.Decimal.Whole
import ExprLang.Proofs.Member.Mapping
import ExprLang.Proofs.Value.Antisymmetry

/-!
# Positions in texts and sequences

* `Addressable length`            what has this length fits into a memory of 64-bit addresses;
* `Positioned i length r`         the outcome `r` for position `i` of so many characters or items:
                                  found, no whole number, or a whole number outside;
* `Evaluator.ThreeWay ev c e i l` the expression `e` has these three outcomes;
* `Evaluator.CutsText ev c t s p i q n`
                                  what `Length`, `Substring` and `t[p]` say about the text `s` is of
                                  one count of its characters.

`Substring` takes its positions one by one (`callSubstring_one_eq_ok`, `callSubstring_two_eq_ok`),
an index takes one (`checkedIndex_eq_ok`), and both take a number for the count it is, whatever its
scale.  A negative zero is a count too, and yet no position, so the numbers here are no negative
zeros (`Addressable.toIndex?_iff`).  The sum of two positions within a text, and the rest of its
length, are numbers again (`IsCount.add`, `IsCount.sub`), so texts are cut and joined by arithmetic
in the language.
-/

namespace ExprLang

def Addressable (length : Nat) : Prop := length < 18446744073709551616

variable {s : String} {i n : Decimal} {v : Value} {length a : Nat}

namespace Addressable

variable (hl : Addressable length) (ha : a ≤ length)
include hl ha

theorem lt_limit : a < Decimal.limit :=
  Nat.lt_of_le_of_lt ha (Nat.lt_of_lt_of_le hl (by decide))

theorem isCount : (Decimal.ofNat a).IsCount a := Decimal.isCount_ofNat (lt_limit hl ha)

theorem toIndex? (hi : i.IsCount a) : i.toIndex? = some a :=
  Decimal.toIndex?_eq_some_iff.2 ⟨hi, Nat.lt_of_le_of_lt ha hl⟩

/-- of the numbers that are no negative zero, the counts of characters are the positions -/
theorem toIndex?_iff (hi : i.isNegativeZero = false) : i.toIndex? = some a ↔ i.Denotes a 0 := by
  rw [Decimal.toIndex?_eq_some_iff, Decimal.isCount_iff hi]
  exact and_iff_left (Nat.lt_of_le_of_lt ha hl)

end Addressable

/-! ## parts of a text -/

theorem indexArgument_eq_ok {position : Nat} :
    indexArgument position (.number i) = .ok a ↔ i.toIndex? = some a := by
  rw [indexArgument, bind_eq_ok]
  constructor
  · rintro ⟨d, hd, h⟩
    cases hd
    split at h
    · next k hk =>
      cases h
      exact hk
    · cases h
  · intro h
    refine ⟨i, rfl, ?_⟩
    rw [h]
    rfl

theorem substringFrom_eq_ok {r : String} : substringFrom s a = .ok r ↔
    a ≤ textLength s ∧ String.ofList (s.toList.drop a) = r := by
  unfold substringFrom
  split
  · constructor
    · intro h
      cases h
    · rintro ⟨h, -⟩
      omega
  · rw [Except.ok.injEq, and_iff_right (by omega)]

theorem substring_eq_ok {b : Nat} {r : String} : substring s a b = .ok r ↔
    a + b ≤ textLength s ∧ String.ofList ((s.toList.drop a).take b) = r := by
  show (substringFrom s a >>= fun tail => if textLength tail < b then
      Except.error (ArgumentFault.lengthPastEnd b a (textLength s))
    else .ok (String.ofList (tail.toList.take b))) = .ok r ↔ _
  simp only [bind_eq_ok, substringFrom_eq_ok]
  constructor
  · rintro ⟨_, ⟨ha, rfl⟩, h⟩
    split at h
    · cases h
    · next hb =>
      rw [textLength, String.toList_ofList, List.length_drop] at hb
      rw [String.toList_ofList] at h
      cases h
      rw [textLength] at ha ⊢
      exact ⟨by omega, rfl⟩
  · rintro ⟨h, rfl⟩
    refine ⟨_, ⟨by omega, rfl⟩, ?_⟩
    rw [textLength] at h
    rw [textLength, String.toList_ofList, List.length_drop, if_neg (by omega)]

theorem callSubstring_one_eq_ok : callSubstring s [.number i] = .ok v ↔
    ∃ a, i.toIndex? = some a ∧ a ≤ textLength s ∧ .text (String.ofList (s.toList.drop a)) = v := by
  show (indexArgument 1 (.number i) >>= fun a => substringFrom s a >>= fun r =>
    .ok (.text r)) = .ok v ↔ _
  simp only [bind_eq_ok, indexArgument_eq_ok, substringFrom_eq_ok, Except.ok.injEq]
  refine exists_congr fun a => and_congr_right fun _ => ?_
  constructor
  · rintro ⟨_, ⟨ha, rfl⟩, rfl⟩
    exact ⟨ha, rfl⟩
  · rintro ⟨ha, rfl⟩
    exact ⟨_, ⟨ha, rfl⟩, rfl⟩

theorem callSubstring_two_eq_ok : callSubstring s [.number i, .number n] = .ok v ↔
    ∃ a b, i.toIndex? = some a ∧ n.toIndex? = some b ∧ a + b ≤ textLength s ∧
      .text (String.ofList ((s.toList.drop a).take b)) = v := by
  show (indexArgument 1 (.number i) >>= fun a => substringFrom s a >>= fun _ =>
    indexArgument 2 (.number n) >>= fun b => substring s a b >>= fun r => .ok (.text r)) = .ok v ↔ _
  simp only [bind_eq_ok, indexArgument_eq_ok, substringFrom_eq_ok, substring_eq_ok, Except.ok.injEq]
  constructor
  · rintro ⟨a, ha, _, -, b, hb, _, ⟨hab, rfl⟩, rfl⟩
    exact ⟨a, b, ha, hb, hab, rfl⟩
  · rintro ⟨a, b, ha, hb, hab, rfl⟩
    exact ⟨a, ha, _, ⟨by omega, rfl⟩, b, hb, _, ⟨hab, rfl⟩, rfl⟩

theorem callSubstring_two_iff (hs : Addressable (textLength s)) (hi : i.isNegativeZero = false)
    (hn : n.isNegativeZero = false) :
    callSubstring s [.number i, .number n] = .ok v ↔
      ∃ a b : Nat, i.Denotes a 0 ∧ n.Denotes b 0 ∧ a + b ≤ textLength s ∧
        .text (String.ofList ((s.toList.drop a).take b)) = v := by
  rw [callSubstring_two_eq_ok]
  refine exists_congr fun a => exists_congr fun b => ?_
  constructor
  · rintro ⟨ha, hb, hab, hv⟩
    rw [hs.toIndex?_iff (by omega) hi] at ha
    rw [hs.toIndex?_iff (by omega) hn] at hb
    exact ⟨ha, hb, hab, hv⟩
  · rintro ⟨ha, hb, hab, hv⟩
    rw [← hs.toIndex?_iff (by omega) hi] at ha
    rw [← hs.toIndex?_iff (by omega) hn] at hb
    exact ⟨ha, hb, hab, hv⟩

theorem exists_callSubstring_one (h : callSubstring s [.number i, .number n] = .ok v) :
    ∃ w, callSubstring s [.number i] = .ok w := by
  obtain ⟨a, b, ha, -, hab, -⟩ := callSubstring_two_eq_ok.1 h
  exact ⟨_, callSubstring_one_eq_ok.2 ⟨a, ha, by omega, rfl⟩⟩

/-- the part up to the end, by its length -/
theorem callSubstring_tail (hs : Addressable (textLength s))
    (h : callSubstring s [.number i] = .ok v) : ∃ d, (Decimal.ofNat (textLength s)).sub i = some d ∧
      callSubstring s [.number i, .number d] = .ok v := by
  obtain ⟨a, ha, hle, rfl⟩ := callSubstring_one_eq_ok.1 h
  obtain ⟨d, hd, hcount⟩ :=
    (hs.isCount (Nat.le_refl _)).sub (Decimal.toIndex?_eq_some_iff.1 ha).1 hle
  have hrest : d.toIndex? = some (textLength s - a) := hs.toIndex? (Nat.sub_le ..) hcount
  refine ⟨d, hd, callSubstring_two_eq_ok.2 ⟨a, _, ha, hrest, by omega, ?_⟩⟩
  rw [List.take_of_length_le]
  rw [List.length_drop]
  exact Nat.le_refl _

/-! ## positions -/

theorem checkedIndex_eq_ok {k : Nat} :
    checkedIndex i length = .ok k ↔ i.toIndex? = some k ∧ k < length := by
  constructor
  · intro h
    unfold checkedIndex at h
    split at h
    · split at h
      · next ha =>
        split at h
        · next hlt =>
          cases h
          exact ⟨ha, hlt⟩
        · cases h
      · cases h
    · cases h
  · rintro ⟨ha, hlt⟩
    have hw := Decimal.isIntegral_iff.2 ⟨_, (Decimal.toIndex?_eq_some_iff.1 ha).1.denotes⟩
    rw [checkedIndex, if_pos hw, ha]
    exact if_pos hlt

inductive Positioned (i : Decimal) (length : Nat) : Except EvalError Nat → Prop where
  | within {k : Nat} : i.Denotes k 0 → k < length → Positioned i length (.ok k)
  | fraction : (∀ k, ¬ i.Denotes k 0) → Positioned i length (.error (.fractionalIndex i))
  | outside {k : Int} : i.Denotes k 0 → ¬(0 ≤ k ∧ k < length) →
      Positioned i length (.error (.indexOutOfRange i length))

theorem checkedIndex_positioned (hl : Addressable length) (hi : i.isNegativeZero = false) :
    Positioned i length (checkedIndex i length) := by
  unfold checkedIndex
  split
  · next hw =>
    obtain ⟨k, hk⟩ := Decimal.isIntegral_iff.1 hw
    split
    · next a ha =>
      have hd := (Decimal.toIndex?_eq_some_iff.1 ha).1.denotes
      split
      · next hlt => exact .within hd hlt
      · next hlt => exact .outside hd (by omega)
    · next hnone =>
      refine .outside hk fun hlt => ?_
      obtain ⟨a, rfl⟩ := Int.eq_ofNat_of_zero_le hlt.1
      have ha := (hl.toIndex?_iff (by omega) hi).2 hk
      rw [hnone] at ha
      cases ha
  · next hw => exact .fraction fun k hk => hw (Decimal.isIntegral_iff.2 ⟨k, hk⟩)

namespace Positioned

variable {r : Except EvalError Nat} (h : Positioned i length r)
include h

theorem ok_iff : (∃ k, r = .ok k) ↔ ∃ k : Nat, i.Denotes k 0 ∧ k < length := by
  cases h with
  | within hk hlt => exact iff_of_true ⟨_, rfl⟩ ⟨_, hk, hlt⟩
  | fraction hk =>
    refine iff_of_false (fun h => ?_) fun ⟨k, hd, _⟩ => hk k hd
    obtain ⟨_, h⟩ := h
    cases h
  | outside hk hlt =>
    refine iff_of_false (fun h => ?_) fun ⟨j, hd, hj⟩ => hlt ?_
    · obtain ⟨_, h⟩ := h
      cases h
    · rw [hk.unique hd]
      omega

theorem operator_iff :
    (∃ x, r = .error x ∧ x.code = "EXPR:OPERATOR") ↔ ¬∃ k : Int, i.Denotes k 0 := by
  cases h with
  | within hk _ =>
    refine iff_of_false (fun h => ?_) fun h => h ⟨_, hk⟩
    obtain ⟨_, h, _⟩ := h
    cases h
  | fraction hk => exact iff_of_true ⟨_, rfl, rfl⟩ fun ⟨k, hd⟩ => hk k hd
  | outside hk _ =>
    refine iff_of_false (fun h => ?_) fun h => h ⟨_, hk⟩
    obtain ⟨_, h, hc⟩ := h
    cases h
    have hne : "EXPR:INDEX_OOB" ≠ "EXPR:OPERATOR" := by decide
    exact hne hc

theorem outside_iff : r = .error (.indexOutOfRange i length) ↔
    ∃ k : Int, i.Denotes k 0 ∧ ¬(0 ≤ k ∧ k < length) := by
  cases h with
  | within hk hlt =>
    refine iff_of_false (fun h => ?_) fun ⟨j, hd, hj⟩ => hj ?_
    · cases h
    · rw [hd.unique hk]
      omega
  | fraction hk =>
    refine iff_of_false (fun h => ?_) fun ⟨k, hd, _⟩ => hk k hd
    cases h
  | outside hk hlt => exact iff_of_true rfl ⟨_, hk, hlt⟩

end Positioned

namespace Evaluator

structure ThreeWay (ev : Evaluator) (c : Context) (e : Expr) (i : Decimal) (length : Nat) :
    Prop where
  value : (∃ v, ev.Gives c e (.ok v)) ↔ ∃ k : Nat, i.Denotes k 0 ∧ k < length
  operator : (∃ x, ev.Gives c e (.error x) ∧ x.code = "EXPR:OPERATOR") ↔
    ¬∃ k : Int, i.Denotes k 0
  outside : ev.Gives c e (.error (.indexOutOfRange i length)) ↔
    ∃ k : Int, i.Denotes k 0 ∧ ¬(0 ≤ k ∧ k < length)

variable {ev : Evaluator} {c : Context} {t p q : Expr}

theorem threeWay_of_gives {e : Expr} {item : Nat → Value} {r : Except EvalError Nat}
    (he : ev.Gives c e (r.map item)) (hr : Positioned i length r) : ev.ThreeWay c e i length where
  value := by
    rw [← hr.ok_iff]
    constructor
    · rintro ⟨v, hv⟩
      obtain ⟨k, hk, -⟩ := map_eq_ok.1 ((gives_iff he).1 hv)
      exact ⟨k, hk⟩
    · rintro ⟨k, rfl⟩
      exact ⟨_, he⟩
  operator := by
    rw [← hr.operator_iff]
    exact exists_congr fun x => and_congr_left fun _ => (gives_iff he).trans map_eq_error
  outside := ((gives_iff he).trans map_eq_error).trans hr.outside_iff

theorem gives_itemAt {items : List Value} (ht : ev.Gives c t (.ok (.sequence items)))
    (hp : ev.Gives c p (.ok (.number i))) :
    ev.Gives c (.index t p) ((checkedIndex i items.length).map fun k => items[k]?.getD .null) :=
  gives_index ht hp fun _ => rfl

/-- what an expression of a text says about its parts: `p` is a position `i`, `q` a length `n` -/
structure CutsText (ev : Evaluator) (c : Context) (t : Expr) (s : String) (p : Expr) (i : Decimal)
    (q : Expr) (n : Decimal) : Prop where
  length : ev.Gives c (.member t "Length") (.ok (.count (textLength s)))
  /-- `t.Substring(p, q)` has a value just if the numbers are natural and the part ends within -/
  part : (∃ v, ev.Gives c (t.invoke "Substring" [p, q]) (.ok v)) ↔
    ∃ a b : Nat, i.Denotes a 0 ∧ n.Denotes b 0 ∧ a + b ≤ textLength s
  /-- `t.Substring(p, q).Length` is `n` -/
  partLength : ∀ v, ev.Gives c (t.invoke "Substring" [p, q]) (.ok v) →
    ∃ l, ev.Gives c (.member (t.invoke "Substring" [p, q]) "Length") (.ok (.number l)) ∧
      l.same n = true
  /-- `t.Substring(0, p) + t.Substring(p, q) + t.Substring(p + q)` is the text -/
  whole : ∀ v, ev.Gives c (t.invoke "Substring" [p, q]) (.ok v) →
    ev.Gives c (.binary (.binary (t.invoke "Substring" [.constant (.number .zero), p]) .add
      (t.invoke "Substring" [p, q])) .add (t.invoke "Substring" [.binary p .add q])) (.ok (.text s))
  /-- `t.Substring(p)` is `t.Substring(p, t.Length - p)` -/
  tail : ∃ r r', ev.Gives c (t.invoke "Substring" [p]) r ∧
    ev.Gives c (t.invoke "Substring" [p, .binary (.member t "Length") .subtract p]) r' ∧ Agree r r'
  /-- the three outcomes of `t[p]` -/
  index : ev.ThreeWay c (.index t p) i (textLength s)
  /-- `t[p]` is `t.Substring(p, 1)` -/
  character : ∀ v, ev.Gives c (.index t p) (.ok v) →
    ev.Gives c (t.invoke "Substring" [p, .constant (.number .one)]) (.ok v)

section
variable {functions : Functions} (hh : ev.host = .standard functions)
  (ht : ev.Gives c t (.ok (.text s))) (hp : ev.Gives c p (.ok (.number i)))
include hh ht

theorem gives_textLength : ev.Gives c (.member t "Length") (.ok (.count (textLength s))) :=
  gives_reading hh ht "Length"

include hp

theorem gives_from_iff : ev.Gives c (t.invoke "Substring" [p]) (.ok v) ↔
    callSubstring s [.number i] = .ok v :=
  gives_answer_iff hh ht (comes_one hp) rfl

theorem gives_part_iff (hq : ev.Gives c q (.ok (.number n))) :
    ev.Gives c (t.invoke "Substring" [p, q]) (.ok v) ↔
      callSubstring s [.number i, .number n] = .ok v :=
  gives_answer_iff hh ht (comes_two hp hq) rfl

end

section
variable {functions : Functions} (hh : ev.host = .standard functions)
  (ht : ev.Gives c t (.ok (.text s))) (hs : Addressable (textLength s))
  (hp : ev.Gives c p (.ok (.number i)))

include hh ht hs hp

theorem agree_tail : ∃ r r', ev.Gives c (t.invoke "Substring" [p]) r ∧
    ev.Gives c (t.invoke "Substring" [p, .binary (.member t "Length") .subtract p]) r' ∧
      Agree r r' := by
  have hfrom : ev.Gives c (t.invoke "Substring" [p])
      (Dispatch.answered "Substring" (callSubstring s [.number i])) :=
    gives_answer hh ht (comes_one hp) rfl
  have hdiff : ev.Gives c (.binary (.member t "Length") .subtract p)
      (BinaryOp.orOverflow .subtract (((Decimal.ofNat (textLength s)).sub i).map .number)) :=
    gives_binary (gives_textLength hh ht) hp (by decide) (by decide)
  cases hone : callSubstring s [.number i] with
  | ok v =>
    obtain ⟨d, hd, htwo⟩ := callSubstring_tail hs hone
    rw [hd] at hdiff
    exact ⟨_, _, (gives_from_iff hh ht hp).2 hone, (gives_part_iff hh ht hp hdiff).2 htwo, rfl⟩
  | error fault =>
    rw [hone] at hfrom
    cases hd : (Decimal.ofNat (textLength s)).sub i with
    | none =>
      rw [hd] at hdiff
      exact ⟨_, _, hfrom,
        gives_invoke hh ht (comes_cons hp (comes_cons hdiff comes_nil)) "Substring", trivial⟩
    | some d =>
      rw [hd] at hdiff
      refine ⟨_, _, hfrom, gives_answer hh ht (comes_two hp hdiff) rfl, ?_⟩
      cases htwo : callSubstring s [.number i, .number d] with
      | error fault' => exact trivial
      | ok v =>
        obtain ⟨w, hw⟩ := exists_callSubstring_one htwo
        rw [hone] at hw
        cases hw

theorem gives_whole (hq : ev.Gives c q (.ok (.number n)))
    (h : ev.Gives c (t.invoke "Substring" [p, q]) (.ok v)) :
    ev.Gives c (.binary (.binary (t.invoke "Substring" [.constant (.number .zero), p]) .add
      (t.invoke "Substring" [p, q])) .add (t.invoke "Substring" [.binary p .add q]))
      (.ok (.text s)) := by
  obtain ⟨a, b, ha, hb, hab, rfl⟩ := callSubstring_two_eq_ok.1 ((gives_part_iff hh ht hp hq).1 h)
  obtain ⟨sum, hsum, hcount⟩ := (Decimal.toIndex?_eq_some_iff.1 ha).1.add
    (Decimal.toIndex?_eq_some_iff.1 hb).1 (hs.lt_limit hab)
  have hindex : sum.toIndex? = some (a + b) := hs.toIndex? hab hcount
  have hfirst := (gives_part_iff hh ht (gives_constant (.number .zero)) hp).2
    (callSubstring_two_eq_ok.2 ⟨0, a, by decide, ha, by omega, rfl⟩)
  have hlast := (gives_from_iff hh ht (gives_plus hp hq hsum)).2
    (callSubstring_one_eq_ok.2 ⟨a + b, hindex, hab, rfl⟩)
  have hpieces : String.ofList ((s.toList.drop 0).take a) ++
      String.ofList ((s.toList.drop a).take b) ++ String.ofList (s.toList.drop (a + b)) = s := by
    rw [← String.ofList_append, ← String.ofList_append, List.drop_zero, ← List.take_add,
      List.take_append_drop, String.ofList_toList]
  have hboth := gives_concat (gives_concat hfirst h) hlast
  rwa [hpieces] at hboth

theorem gives_partLength (hq : ev.Gives c q (.ok (.number n)))
    (h : ev.Gives c (t.invoke "Substring" [p, q]) (.ok v)) :
    ∃ l, ev.Gives c (.member (t.invoke "Substring" [p, q]) "Length") (.ok (.number l)) ∧
      l.same n = true := by
  obtain ⟨a, b, -, hb, hab, rfl⟩ := callSubstring_two_eq_ok.1 ((gives_part_iff hh ht hp hq).1 h)
  have hlen : textLength (String.ofList ((s.toList.drop a).take b)) = b := by
    rw [textLength, String.toList_ofList, List.length_take, List.length_drop]
    rw [textLength] at hab
    omega
  have hl := gives_textLength hh h
  rw [hlen] at hl
  exact ⟨_, hl, (hs.isCount (by omega)).same (Decimal.toIndex?_eq_some_iff.1 hb).1⟩

omit hh hs in
theorem gives_characterAt : ev.Gives c (.index t p) ((checkedIndex i (textLength s)).map fun k =>
    match s.toList[k]? with
    | some char => .text (String.singleton char)
    | none => .null) :=
  gives_index ht hp fun _ => rfl

omit hs in
theorem gives_character (h : ev.Gives c (.index t p) (.ok v)) :
    ev.Gives c (t.invoke "Substring" [p, .constant (.number .one)]) (.ok v) := by
  obtain ⟨k, hk, hv⟩ := map_eq_ok.1 ((gives_iff (gives_characterAt ht hp)).1 h)
  obtain ⟨hk, hlt⟩ := checkedIndex_eq_ok.1 hk
  refine (gives_part_iff hh ht hp (gives_constant (.number .one))).2
    (callSubstring_two_eq_ok.2 ⟨k, 1, hk, by decide, hlt, ?_⟩)
  rw [← hv, List.getElem?_eq_getElem hlt, List.drop_eq_getElem_cons hlt, List.take_succ_cons,
    List.take_zero, ← String.singleton_eq_ofList]

end

/-- positions and lengths count characters, in members and in brackets, and items -/
theorem positions_count {ev : Evaluator} {functions : Functions}
    (hh : ev.host = .standard functions) (c : Context) {p q : Expr} {i n : Decimal}
    (hp : ev.Gives c p (.ok (.number i)))
    (hq : ev.Gives c q (.ok (.number n))) (hi : i.isNegativeZero = false)
    (hn : n.isNegativeZero = false) :
    (∀ {t s}, ev.Gives c t (.ok (.text s)) → Addressable (textLength s) →
      ev.CutsText c t s p i q n) ∧
    ∀ {t items}, ev.Gives c t (.ok (.sequence items)) → Addressable items.length →
      ev.Gives c (.member t "Length") (.ok (.count items.length)) ∧
      ev.ThreeWay c (.index t p) i items.length ∧
      ∀ (k : Nat) (hk : k < items.length), i.Denotes k 0 →
        ev.Gives c (.index t p) (.ok items[k]) := by
  refine ⟨fun {t s} ht hs => ?_, fun {t items} ht hl => ⟨gives_length hh ht _ (by decide), ?_, ?_⟩⟩
  · exact
      { length := gives_textLength hh ht
        part := by
          simp only [gives_part_iff hh ht hp hq, callSubstring_two_iff hs hi hn]
          constructor
          · rintro ⟨_, a, b, ha, hb, hab, -⟩
            exact ⟨a, b, ha, hb, hab⟩
          · rintro ⟨a, b, ha, hb, hab⟩
            exact ⟨_, a, b, ha, hb, hab, rfl⟩
        partLength := fun v h => gives_partLength hh ht hs hp hq h
        whole := fun v h => gives_whole hh ht hs hp hq h
        tail := agree_tail hh ht hs hp
        index := threeWay_of_gives (gives_characterAt ht hp) (checkedIndex_positioned hs hi)
        character := fun v h => gives_character hh ht hp h }
  · exact threeWay_of_gives (gives_itemAt ht hp) (checkedIndex_positioned hl hi)
  · intro k hk hd
    exact gives_item ht hp ((hl.toIndex?_iff (Nat.le_of_lt hk) hi).2 hd) hk

/-- an accented letter is one character, and `2.00` is a length -/
theorem positions_count_accented :
    let ev : Evaluator := ⟨{}, .standard fun _ => none⟩
    let one : Decimal := { negative := false, mantissa := 10, scale := 1 }
    let two : Decimal := { negative := false, mantissa := 200, scale := 2 }
    let t : Expr := .constant (.text "hé!")
    let p : Expr := .constant (.number one)
    let q : Expr := .constant (.number two)
    (one.isNegativeZero = false ∧ two.isNegativeZero = false) ∧
      (∃ v, ev.Gives .empty (t.invoke "Substring" [p, q]) (.ok v) ∧
        ev.Gives .empty (.binary (.binary (t.invoke "Substring" [.constant (.number .zero), p]) .add
          (t.invoke "Substring" [p, q])) .add (t.invoke "Substring" [.binary p .add q]))
          (.ok (.text "hé!"))) ∧
      ev.Gives .empty (.index (.constant (.sequence [.null, .boolean true])) p)
        (.ok (.boolean true)) := by
  intro ev one two t p q
  have hone : one.isNegativeZero = false := by decide
  have htwo : two.isNegativeZero = false := by decide
  have hlength : Addressable (textLength "hé!") ∧
      Addressable [Value.null, .boolean true].length := by
    unfold Addressable
    decide
  have hh : ev.host = .standard fun _ => none := rfl
  obtain ⟨htext, hitems⟩ := positions_count hh .empty (gives_constant (.number one))
    (gives_constant (.number two)) hone htwo
  have hcuts := htext (gives_constant (.text "hé!")) hlength.1
  obtain ⟨v, hv⟩ := hcuts.part.2 ⟨1, 2, by decide, by decide, by decide⟩
  have hitem := (hitems (gives_constant (.sequence _)) hlength.2).2.2 1 (by decide) (by decide)
  exact ⟨⟨hone, htwo⟩, ⟨v, hv, hcuts.whole v hv⟩, hitem⟩

end Evaluator

end ExprLang
