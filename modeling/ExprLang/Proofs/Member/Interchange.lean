import ExprLang.Proofs.Member.Position
import ExprLang.Proofs.Value.Refinement

/-!
# Equal numbers as positions

* `Matches r r'`                     one value, or errors of one code;
* `Evaluator.Matched ev c e e'`      the results of the two expressions match;
* `Evaluator.Interchange ev c p q`   the two numbers `p` and `q` are the same position, or length, in
                                     every sequence and in every text;
* `Evaluator.NoPosition ev c p n`    the number `n` of `p` is a position in none.

Two numbers are equal with any scale and with either sign of zero.  A look-up in a mapping compares
its key with `same`, which knows neither (`find?_number_congr`).  Whether a number is whole does not
depend on them either, but a position must not have a negative sign, so equal numbers are one
position if both are negative zeros or none is (`toIndex?_congr`): a negative zero is whole, and yet
out of range, where zero is the position of the first character.
-/

namespace ExprLang

variable {n m : Decimal}

/-! ## equal numbers -/

namespace Decimal

theorem denotes_congr (h : n.same m = true) {k : Int} : n.Denotes k 0 ↔ m.Denotes k 0 := by
  have hnm : n.Denotes m.signed m.scale := (same_iff n m).1 h
  have hmn : m.Denotes n.signed n.scale := hnm.symm
  exact ⟨hmn.trans, hnm.trans⟩

theorem isIntegral_congr (h : n.same m = true) : n.isIntegral = m.isIntegral := by
  rw [Bool.eq_iff_iff, isIntegral_iff, isIntegral_iff]
  exact exists_congr fun _ => denotes_congr h

theorem toIndex?_of_isNegativeZero (h : n.isNegativeZero = true) : n.toIndex? = none := by
  refine toIndex?_eq_none fun x hx => ?_
  rw [hx.isNegativeZero] at h
  cases h

theorem toIndex?_congr (h : n.same m = true) (hz : n.isNegativeZero = m.isNegativeZero) :
    n.toIndex? = m.toIndex? := by
  cases hn : n.isNegativeZero with
  | true => rw [toIndex?_of_isNegativeZero hn, toIndex?_of_isNegativeZero (hz ▸ hn)]
  | false =>
    refine Option.ext fun x => ?_
    rw [toIndex?_eq_some_iff, toIndex?_eq_some_iff, isCount_iff hn, isCount_iff (hz ▸ hn),
      denotes_congr h]

end Decimal

theorem Value.same_number_congr (h : n.same m = true) (v : Value) :
    (Value.number n).same v = (Value.number m).same v := by
  cases v with
  | number k =>
    exact Bool.eq_iff_iff.2 ⟨Decimal.same_trans (Decimal.same_symm h), Decimal.same_trans h⟩
  | _ => rfl

theorem Value.Entries.find?_number_congr (h : n.same m = true) (es : Entries) :
    es.find? (.number n) = es.find? (.number m) := by
  unfold find?
  congr 1
  exact List.find?_congr fun e _ => same_number_congr h e.1

/-! ## results that match -/

inductive Matches : Except EvalError Value → Except EvalError Value → Prop where
  | value (v : Value) : Matches (.ok v) (.ok v)
  | error {x y : EvalError} : x.code = y.code → Matches (.error x) (.error y)

theorem matches_answered {name : String} {r r' : Except ArgumentFault Value}
    (h : ∀ v, r = .ok v ↔ r' = .ok v) :
    Matches (Dispatch.answered name r) (Dispatch.answered name r') := by
  cases r with
  | ok v =>
    rw [(h v).1 rfl]
    exact .value v
  | error fault =>
    cases r' with
    | ok v => cases (h v).2 rfl
    | error fault' => exact .error rfl

theorem matches_checkedIndex (h : n.same m = true) (hz : n.isNegativeZero = m.isNegativeZero)
    (length : Nat) (item : Nat → Value) :
    Matches ((checkedIndex n length).map item) ((checkedIndex m length).map item) := by
  unfold checkedIndex
  rw [Decimal.isIntegral_congr h, Decimal.toIndex?_congr h hz]
  split
  · split
    · split
      · exact .value _
      · exact .error rfl
    · exact .error rfl
  · exact .error rfl

theorem checkedIndex_of_isNegativeZero (h : n.isNegativeZero = true) (length : Nat) :
    checkedIndex n length = .error (.indexOutOfRange n length) := by
  have hw : n.isIntegral = true := by
    rw [Decimal.isNegativeZero, Bool.and_eq_true, Decimal.isZero, beq_iff_eq] at h
    rw [Decimal.isIntegral, h.2, Nat.zero_mod]
    rfl
  rw [checkedIndex, if_pos hw, Decimal.toIndex?_of_isNegativeZero h]

/-! ## expressions -/

namespace Evaluator

variable {ev : Evaluator} {c : Context} {t p q : Expr}

def Matched (ev : Evaluator) (c : Context) (e e' : Expr) : Prop :=
  ∃ r r', ev.Gives c e r ∧ ev.Gives c e' r' ∧ Matches r r'

structure Interchange (ev : Evaluator) (c : Context) (p q : Expr) : Prop where
  item : ∀ {t items}, ev.Gives c t (.ok (.sequence items)) →
    ev.Matched c (.index t p) (.index t q)
  character : ∀ {t s}, ev.Gives c t (.ok (.text s)) → ev.Matched c (.index t p) (.index t q)
  rest : ∀ {t s}, ev.Gives c t (.ok (.text s)) →
    ev.Matched c (t.invoke "Substring" [p]) (t.invoke "Substring" [q])
  /-- as the position of a part, and as its length -/
  part : ∀ {t s k l}, ev.Gives c t (.ok (.text s)) → ev.Gives c k (.ok (.number l)) →
    ev.Matched c (t.invoke "Substring" [p, k]) (t.invoke "Substring" [q, k]) ∧
      ev.Matched c (t.invoke "Substring" [k, p]) (t.invoke "Substring" [k, q])

structure NoPosition (ev : Evaluator) (c : Context) (p : Expr) (n : Decimal) : Prop where
  item : ∀ {t items}, ev.Gives c t (.ok (.sequence items)) →
    ev.Gives c (.index t p) (.error (.indexOutOfRange n items.length))
  character : ∀ {t s}, ev.Gives c t (.ok (.text s)) →
    ev.Gives c (.index t p) (.error (.indexOutOfRange n (textLength s)))
  rest : ∀ {t s v}, ev.Gives c t (.ok (.text s)) → ¬ ev.Gives c (t.invoke "Substring" [p]) (.ok v)
  part : ∀ {t s k l v}, ev.Gives c t (.ok (.text s)) → ev.Gives c k (.ok (.number l)) →
    ¬ ev.Gives c (t.invoke "Substring" [p, k]) (.ok v) ∧
      ¬ ev.Gives c (t.invoke "Substring" [k, p]) (.ok v)

theorem matched_answers {functions : Functions} (hh : ev.host = .standard functions) {s : String}
    (ht : ev.Gives c t (.ok (.text s))) {es es' : List Expr} {vs vs' : List Value}
    (hes : (ev.evalAll c es).Comes (.ok vs)) (hes' : (ev.evalAll c es').Comes (.ok vs'))
    (h : ∀ v, callSubstring s vs = .ok v ↔ callSubstring s vs' = .ok v) :
    ev.Matched c (t.invoke "Substring" es) (t.invoke "Substring" es') :=
  ⟨_, _, gives_answer hh ht hes rfl, gives_answer hh ht hes' rfl, matches_answered h⟩

/-- an exact comparison of numbers looks at nothing but the numbers -/
theorem same_of_strictEqual (hn : ev.comparer.normalizer.Unwraps)
    (hp : ev.Gives c p (.ok (.number n))) (hq : ev.Gives c q (.ok (.number m)))
    (h : ev.Gives c (.binary p .strictEqual q) (.ok (.boolean true))) : n.same m = true := by
  have hb : ev.Gives c (.binary p .strictEqual q)
      (.ok (.boolean (ev.comparer.exactEquals (.number n) (.number m)))) :=
    gives_binary hp hq (by decide) (by decide)
  have hplain (k : Decimal) : ev.comparer.normalizer.apply (.number k) = .number k := by
    refine hn.apply_of_plain fun hk => ?_
    cases hk
  have he := (gives_iff hb).1 h
  rw [Comparer.exactEquals, hplain, hplain, Except.ok.injEq, Value.boolean.injEq] at he
  exact he

section
variable {functions : Functions} (hh : ev.host = .standard functions)
  (hp : ev.Gives c p (.ok (.number n)))
include hh hp

theorem interchange (hq : ev.Gives c q (.ok (.number m))) (h : n.same m = true)
    (hz : n.isNegativeZero = m.isNegativeZero) : ev.Interchange c p q where
  item ht := ⟨_, _, gives_itemAt ht hp, gives_itemAt ht hq, matches_checkedIndex h hz _ _⟩
  character ht :=
    ⟨_, _, gives_characterAt ht hp, gives_characterAt ht hq, matches_checkedIndex h hz _ _⟩
  rest ht := by
    refine matched_answers hh ht (comes_one hp) (comes_one hq) fun v => ?_
    rw [callSubstring_one_eq_ok, callSubstring_one_eq_ok, Decimal.toIndex?_congr h hz]
  part ht hk := by
    constructor
    · refine matched_answers hh ht (comes_two hp hk) (comes_two hq hk) fun v => ?_
      rw [callSubstring_two_eq_ok, callSubstring_two_eq_ok, Decimal.toIndex?_congr h hz]
    · refine matched_answers hh ht (comes_two hk hp) (comes_two hk hq) fun v => ?_
      rw [callSubstring_two_eq_ok, callSubstring_two_eq_ok, Decimal.toIndex?_congr h hz]

theorem noPosition (hz : n.isNegativeZero = true) : ev.NoPosition c p n where
  item {t items} ht := by
    have h := gives_itemAt ht hp
    rwa [checkedIndex_of_isNegativeZero hz] at h
  character {t s} ht := by
    have h := gives_characterAt ht hp
    rwa [checkedIndex_of_isNegativeZero hz] at h
  rest ht h := by
    obtain ⟨a, ha, -⟩ := callSubstring_one_eq_ok.1 ((gives_from_iff hh ht hp).1 h)
    rw [Decimal.toIndex?_of_isNegativeZero hz] at ha
    cases ha
  part ht hk := by
    constructor
    · intro h
      obtain ⟨a, b, ha, -⟩ := callSubstring_two_eq_ok.1 ((gives_part_iff hh ht hp hk).1 h)
      rw [Decimal.toIndex?_of_isNegativeZero hz] at ha
      cases ha
    · intro h
      obtain ⟨a, b, -, hb, -⟩ := callSubstring_two_eq_ok.1 ((gives_part_iff hh ht hk hp).1 h)
      rw [Decimal.toIndex?_of_isNegativeZero hz] at hb
      cases hb

end

/-- exactly equal numbers are one key of every mapping, and one position unless just one of them is
a negative zero, which is none -/
theorem equal_positions {ev : Evaluator} {functions : Functions}
    (hh : ev.host = .standard functions) (hn : ev.comparer.normalizer.Unwraps) (c : Context)
    {p q : Expr} {n m : Decimal} (hp : ev.Gives c p (.ok (.number n)))
    (hq : ev.Gives c q (.ok (.number m)))
    (h : ev.Gives c (.binary p .strictEqual q) (.ok (.boolean true))) :
    (∀ {t es}, ev.Gives c t (.ok (.mapping es)) → ev.Matched c (.index t p) (.index t q)) ∧
      (n.isNegativeZero = m.isNegativeZero → ev.Interchange c p q) ∧
      (n.isNegativeZero = true → ev.NoPosition c p n) ∧
      (m.isNegativeZero = true → ev.NoPosition c q m) := by
  have hs := same_of_strictEqual hn hp hq h
  refine ⟨fun {t es} ht => ?_, interchange hh hp hq hs, noPosition hh hp, noPosition hh hq⟩
  refine ⟨_, _, gives_entry ht hp, gives_entry ht hq, ?_⟩
  rw [Value.Entries.find?_number_congr hs]
  cases Value.Entries.find? es (.number m) with
  | none => exact .error rfl
  | some v => exact .value v

/-- `2.0` and `2` -/
theorem equal_positions_scaled :
    let ev : Evaluator := ⟨{}, .standard fun _ => none⟩
    let scaled : Decimal := { negative := false, mantissa := 20, scale := 1 }
    let p : Expr := .constant (.number scaled)
    let q : Expr := .constant (.number (.ofNat 2))
    let t : Expr := .constant (.text "abc")
    ev.Gives .empty (.binary p .strictEqual q) (.ok (.boolean true)) ∧
      scaled.isNegativeZero = (Decimal.ofNat 2).isNegativeZero ∧
      ev.Matched .empty (.index t p) (.index t q) := by
  intro ev scaled p q t
  have heq : ev.Gives .empty (.binary p .strictEqual q) (.ok (.boolean true)) :=
    gives_binary (gives_constant _) (gives_constant _) (by decide) (by decide)
  have hz : scaled.isNegativeZero = (Decimal.ofNat 2).isNegativeZero := by decide
  have hh : ev.host = .standard fun _ => none := rfl
  have h := equal_positions hh Normalizer.unwraps_identity .empty (gives_constant (.number scaled))
    (gives_constant (.number (.ofNat 2))) heq
  exact ⟨heq, hz, (h.2.1 hz).character (gives_constant (.text "abc"))⟩

/-- `-x` with `x = 0` is exactly `0`, and in a sequence of one item only `0` is a position -/
theorem negative_zero_position :
    let ev : Evaluator := ⟨{}, .standard fun _ => none⟩
    let c : Context := Context.empty.set "x" (.number .zero)
    let p : Expr := .unary .negate (.var "x")
    let q : Expr := .constant (.number .zero)
    let t : Expr := .constant (.sequence [.number (.ofNat 7)])
    ev.Gives c (.binary p .strictEqual q) (.ok (.boolean true)) ∧
      ev.Gives c (.index t q) (.ok (.number (.ofNat 7))) ∧
      ev.Gives c (.index t p) (.error (.indexOutOfRange Decimal.zero.neg 1)) ∧
      ¬ ev.Matched c (.index t p) (.index t q) := by
  intro ev c p q t
  have hp : ev.Gives c p (.ok (.number Decimal.zero.neg)) := gives_unary (gives_var "x") .negate
  have hq : ev.Gives c q (.ok (.number .zero)) := gives_constant _
  have ht : ev.Gives c t (.ok (.sequence [.number (.ofNat 7)])) := gives_constant _
  have hitem : ev.Gives c (.index t q) (.ok (.number (.ofNat 7))) := gives_itemAt ht hq
  have hnone : ev.Gives c (.index t p) (.error (.indexOutOfRange Decimal.zero.neg 1)) :=
    gives_itemAt ht hp
  refine ⟨gives_binary hp hq (by decide) (by decide), hitem, hnone, ?_⟩
  rintro ⟨r, r', hr, hr', hm⟩
  cases (gives_iff hnone).1 hr
  cases (gives_iff hitem).1 hr'
  cases hm

end Evaluator

end ExprLang
