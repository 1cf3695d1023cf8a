import ExprLang.Proofs.Decimal.Order
import ExprLang.Proofs.Value.Antisymmetry

/-!
# Exact equality refines loose equality

* `Normalizer.Unwraps n`      `n` maps some host objects to the values they hold, and nothing else;
* `KnownTo host v`            every host object in `v` is the one that `host` has under its identity;
* `Decimal.isOutOfRange s`    the text looks like a number, but no decimal can be read of it;
* `EqualUnless n reached r`   the result `r` is "equal", unless one of the values that are reached is
                              a text out of range: then it is the error of such a text.

Equal identities are one host object only within one host, so what is unwrapped of two host objects
is the same if both are known to it (`same_apply`).  Each rule gives "equal" for structurally equal
values, but for the texts that are read as numbers (`pairOrder_of_same`).
-/

namespace ExprLang

open Value

/-! ## what a host knows -/

/-- a normalizer of which each value is itself or, for a host object, what it holds -/
def Normalizer.Unwraps (n : Normalizer) : Prop :=
  ∀ v, n.apply v = v ∨ ∃ h w, v = .hostObject h (some w) ∧ n.apply v = w

theorem Normalizer.unwraps_identity : identity.Unwraps := fun _ => .inl rfl

theorem Normalizer.unwraps_unwrapping : unwrapping.Unwraps := by
  intro v
  cases v with
  | hostObject h held =>
    cases held with
    | none => exact .inl rfl
    | some w => exact .inr ⟨h, w, rfl, rfl⟩
  | _ => exact .inl rfl

inductive KnownTo (host : Nat → Value) : Value → Prop where
  | plain {v : Value} : v.kind.isCollection = false → v.kind ≠ .hostObject → KnownTo host v
  | sequence {items : List Value} : (∀ v ∈ items, KnownTo host v) → KnownTo host (.sequence items)
  | mapping {entries : Entries} : (∀ e ∈ entries, KnownTo host e.1) →
      (∀ e ∈ entries, KnownTo host e.2) → KnownTo host (.mapping entries)
  | hostObject {h : Handle} {held : Option Value} : host h.identity = .hostObject h held →
      (∀ v, held = some v → KnownTo host v) → KnownTo host (.hostObject h held)

section
variable {host : Nat → Value}

theorem KnownTo.items {items : List Value} (h : KnownTo host (.sequence items)) :
    ∀ v ∈ items, KnownTo host v := by
  cases h with
  | plain hc => cases hc
  | sequence h => exact h

theorem KnownTo.object {h : Handle} {held : Option Value} (hk : KnownTo host (.hostObject h held)) :
    host h.identity = .hostObject h held ∧ ∀ v, held = some v → KnownTo host v := by
  cases hk with
  | plain _ hne => exact absurd rfl hne
  | hostObject he hv => exact ⟨he, hv⟩

/-- one identity is one host object -/
theorem KnownTo.eq_of_same {v : Value} {h : Handle} {held : Option Value} (hv : KnownTo host v)
    (hk : KnownTo host (.hostObject h held)) (hs : v.same (.hostObject h held) = true) :
    v = .hostObject h held := by
  cases v with
  | hostObject g held' =>
    have hid : g.identity = h.identity := beq_iff_eq.1 hs
    rw [← hv.object.1, hid, hk.object.1]
  | _ => cases hs

end

theorem kind_eq_of_same {v w : Value} (h : v.same w = true) : v.kind = w.kind := by
  cases v <;> cases w <;> first | rfl | cases h

namespace Normalizer.Unwraps

variable {n : Normalizer} (hn : n.Unwraps) {host : Nat → Value} {v w : Value}
include hn

theorem keepsKeys : n.KeepsKeys := by
  intro v hv
  rcases hn v with h | ⟨g, w, rfl, h⟩
  · rwa [h]
  · rw [h]
    exact hv.held

theorem knownTo (hv : KnownTo host v) : KnownTo host (n.apply v) := by
  rcases hn v with h | ⟨g, w, rfl, h⟩
  · rwa [h]
  · rw [h]
    exact hv.object.2 w rfl

theorem apply_of_plain (h : v.kind ≠ .hostObject) : n.apply v = v := by
  rcases hn v with hv | ⟨g, w, rfl, -⟩
  · exact hv
  · exact absurd rfl h

theorem same_apply (hu : KeysUnique w) (hv : KnownTo host v) (hw : KnownTo host w)
    (hs : v.same w = true) : (n.apply v).same (n.apply w) = true := by
  by_cases hk : w.kind = .hostObject
  · cases w with
    | hostObject h held =>
      rw [hv.eq_of_same hw hs]
      exact same_refl (hn.keepsKeys _ hu).distinct
    | _ => cases hk
  · have hk' : v.kind ≠ .hostObject := fun h => hk ((kind_eq_of_same hs).symm.trans h)
    rwa [hn.apply_of_plain hk', hn.apply_of_plain hk]

end Normalizer.Unwraps

/-! ## the rules -/

def Decimal.isOutOfRange (s : String) : Bool := isDecimalText s && (ofText? s).isNone

/-- the order of a value and a structurally equal one -/
def selfOrder : Value → Comparison
  | .text s =>
    if Decimal.isOutOfRange s then .error (.outOfDecimalRange s) else .ok (some .eq)
  | _ => .ok (some .eq)

theorem plainOrder_text_self (f : NumberFormat) (s : String) :
    plainOrder f (.text s) (.text s) = selfOrder (.text s) := by
  rw [selfOrder, Decimal.isOutOfRange]
  cases hs : Decimal.isDecimalText s with
  | false =>
    rw [plainOrder_texts f hs hs, Std.compare_self]
    rfl
  | true =>
    have hn : isNumeric (.text s) = true := hs
    cases hr : Decimal.ofText? s with
    | none =>
      rw [plainOrder_error f hn hn (numericOperand_error hr)]
      rfl
    | some x =>
      have hx : x.compare x = .eq :=
        (Decimal.compare_eq_iff_same x x).2 ((Decimal.same_iff x x).2 rfl)
      have ho : numericOperand (.text s) = .ok x := numericOperand_text hr
      rw [plainOrder_numbers f hn hn ho ho, hx]
      rfl

theorem naturalOrder_of_same {v w : Value} (h : v.same w = true) (hk : v.kind ≠ .null)
    (hs : v.kind ≠ .sequence) : naturalOrder v w = some .eq := by
  unfold same at h
  split at h
  · exact absurd rfl hk
  · exact congrArg some (Std.compare_eq_iff_eq.2 (beq_iff_eq.1 h))
  · exact congrArg some ((Decimal.compare_eq_iff_same ..).2 h)
  · exact congrArg some (Std.compare_eq_iff_eq.2 (beq_iff_eq.1 h))
  · exact congrArg some (DateTime.compare_eq_iff.2 (beq_iff_eq.1 h))
  · exact congrArg some (Duration.compare_eq_iff.2 (beq_iff_eq.1 h))
  · exact absurd rfl hs
  · exact if_pos h
  · exact if_pos (beq_iff_eq.1 h)
  · exact if_pos (beq_iff_eq.1 h)
  · cases h

theorem plainOrder_of_same (f : NumberFormat) {v w : Value} (h : v.same w = true)
    (hk : v.kind ≠ .null) (hs : v.kind ≠ .sequence) : plainOrder f v w = selfOrder v := by
  have hc : convertedOrder f v w = some .eq := by
    rw [convertedOrder, naturalOrder_of_same h hk hs]
  cases v with
  | number x =>
    cases w with
    | number y =>
      have hxy : x.compare y = .eq := (Decimal.compare_eq_iff_same ..).2 h
      rw [plainOrder_numbers f (x := x) (y := y) rfl rfl rfl rfl, hxy]
      rfl
    | _ => cases h
  | text s =>
    cases w with
    | text t =>
      rw [← beq_iff_eq.1 h]
      exact plainOrder_text_self ..
    | _ => cases h
  | _ => exact (plainOrder_converted f rfl rfl).trans (congrArg Except.ok hc)

theorem pairOrder_of_same {o : ComparerOptions} (hm : o.nullComparison = .minValue) {v w : Value}
    (h : v.same w = true) (hs : v.kind ≠ .sequence) : pairOrder o v w = selfOrder v := by
  by_cases hn : v.kind = .null
  · cases v <;> cases hn
    cases w <;> cases h
    rw [pairOrder_of_null o rfl, hm]
    rfl
  by_cases hb : v.kind = .boolean
  · cases v <;> cases hb
    cases w with
    | boolean y =>
      have hxy := Std.compare_eq_iff_eq.2 (beq_iff_eq.1 h)
      exact congrArg (fun p => Except.ok (some p)) hxy
    | _ => cases h
  have hw : w.kind ≠ .null ∧ w.kind ≠ .boolean := kind_eq_of_same h ▸ ⟨hn, hb⟩
  rw [pairOrder_eq_plainOrder o ⟨hn, hb⟩ hw, plainOrder_of_same _ h hn hs]

/-! ## walks -/

inductive EqualUnless (n : Normalizer) (reached : Value → Value → Prop) : Comparison → Prop where
  | equal : (∀ x y s, reached x y → n.apply x = .text s → Decimal.isOutOfRange s = false) →
      EqualUnless n reached (.ok (some .eq))
  | outOfRange {x y : Value} {s : String} : reached x y → n.apply x = .text s →
      Decimal.isOutOfRange s = true → EqualUnless n reached (.error (.outOfDecimalRange s))

theorem equalUnless_selfOrder {n : Normalizer} {reached : Value → Value → Prop} {a b : Value}
    (hab : reached a b) (h : ∀ x y, reached x y → x = a) :
    EqualUnless n reached (selfOrder (n.apply a)) := by
  by_cases ht : ∃ s, n.apply a = .text s
  · obtain ⟨s, hs⟩ := ht
    rw [hs, selfOrder]
    cases hr : Decimal.isOutOfRange s with
    | true => exact .outOfRange hab hs hr
    | false =>
      refine .equal fun x y t hxy ht => ?_
      rw [h x y hxy, hs] at ht
      cases ht
      exact hr
  · have hself : selfOrder (n.apply a) = .ok (some .eq) := by
      cases hv : n.apply a <;> first | rfl | exact absurd ⟨_, hv⟩ ht
    rw [hself]
    refine .equal fun x y t hxy hxt => ?_
    rw [h x y hxy] at hxt
    exact absurd ⟨t, hxt⟩ ht

namespace Comparer

variable {c : Comparer}

/-- a walk through items that gives "equal" for each pair of items, unless it comes to an error -/
theorem compareParts_equalUnless {xs ys : List Value} (hl : xs.length = ys.length)
    (h : ∀ x y, (x, y) ∈ xs.zip ys → EqualUnless c.normalizer (c.Reaches x y) (c.order x y)) :
    EqualUnless c.normalizer (fun u v => ∃ x y, c.Meets xs ys x y ∧ c.Reaches x y u v)
      (compareParts c.options (xs.map c.normalizer.view) (ys.map c.normalizer.view)) := by
  induction xs generalizing ys with
  | nil =>
    cases ys with
    | nil =>
      refine .equal fun u v s huv _ => ?_
      obtain ⟨x, y, hm, -⟩ := huv
      cases hm
    | cons y ys => cases hl
  | cons x xs ih =>
    cases ys with
    | nil => cases hl
    | cons y ys =>
      have hxy := h x y (List.mem_cons_self ..)
      have hrest := ih (Nat.succ.inj hl) fun x y hm => h x y (List.mem_cons_of_mem _ hm)
      rw [compareParts_views_cons]
      generalize ho : c.order x y = r at hxy
      cases hxy with
      | outOfRange hr hs he => exact .outOfRange ⟨x, y, .head, hr⟩ hs he
      | equal hfirst =>
        show EqualUnless _ _ (compareParts c.options _ _)
        generalize compareParts c.options _ _ = q at hrest ⊢
        cases hrest with
        | outOfRange hr hs he =>
          obtain ⟨u, v, hm, hr⟩ := hr
          exact .outOfRange ⟨u, v, .tail ho hm, hr⟩ hs he
        | equal hlater =>
          refine .equal fun u v s huv hs => ?_
          obtain ⟨x', y', hm, hr⟩ := huv
          cases hm with
          | head => exact hfirst u v s hr hs
          | tail _ hm => exact hlater u v s ⟨x', y', hm, hr⟩ hs

theorem zip_of_sameItems {xs ys : List Value} (h : sameItems xs ys = true) :
    xs.length = ys.length ∧ ∀ x y, (x, y) ∈ xs.zip ys → x.same y = true := by
  induction xs generalizing ys with
  | nil =>
    cases ys with
    | nil => exact ⟨rfl, nofun⟩
    | cons y ys => cases h
  | cons x xs ih =>
    cases ys with
    | nil => cases h
    | cons y ys =>
      rw [sameItems, Bool.and_eq_true] at h
      obtain ⟨hl, hz⟩ := ih h.2
      refine ⟨congrArg Nat.succ hl, fun u v huv => ?_⟩
      rcases List.mem_cons.1 huv with heq | hm
      · cases heq
        exact h.1
      · exact hz u v hm

variable (hn : c.normalizer.Unwraps) (hm : c.options.nullComparison = .minValue)
  {host : Nat → Value}
include hn hm

theorem order_equalUnless {a b : Value} (ha : KeysUnique a ∧ KnownTo host a)
    (hb : KeysUnique b ∧ KnownTo host b)
    (h : (c.normalizer.apply a).same (c.normalizer.apply b) = true) :
    EqualUnless c.normalizer (c.Reaches a b) (c.order a b) := by
  induction a, b using c.normalizer.walk_induct with
  | sequences a b xs ys hxs hys ih =>
    have hka : KeysUnique (.sequence xs) := hxs ▸ hn.keepsKeys a ha.1
    have hkb : KeysUnique (.sequence ys) := hys ▸ hn.keepsKeys b hb.1
    have hha : KnownTo host (.sequence xs) := hxs ▸ hn.knownTo ha.2
    have hhb : KnownTo host (.sequence ys) := hys ▸ hn.knownTo hb.2
    rw [hxs, hys] at h
    obtain ⟨hl, hz⟩ := zip_of_sameItems h
    have hwalk := compareParts_equalUnless (c := c) hl fun x y hxy => by
      obtain ⟨hx, hy⟩ := List.of_mem_zip hxy
      have hx' : KeysUnique x ∧ KnownTo host x := ⟨hka.items x hx, hha.items x hx⟩
      have hy' : KeysUnique y ∧ KnownTo host y := ⟨hkb.items y hy, hhb.items y hy⟩
      exact ih x hx y hx' hy' (hn.same_apply hy'.1 hx'.2 hy'.2 (hz x y hxy))
    rw [order_of_sequences hxs hys, if_pos hl]
    generalize compareParts c.options _ _ = r at hwalk ⊢
    cases hwalk with
    | outOfRange hr hs he =>
      obtain ⟨x, y, hmeet, hr⟩ := hr
      exact .outOfRange (.items hxs hys hl hmeet hr) hs he
    | equal hin =>
      refine .equal fun u v s huv hs => ?_
      cases huv with
      | here =>
        rw [hxs] at hs
        cases hs
      | items hxs' hys' _ hmeet hr =>
        cases hxs.symm.trans hxs'
        cases hys.symm.trans hys'
        exact hin u v s ⟨_, _, hmeet, hr⟩ hs
  | other a b hk =>
    have hkind := kind_eq_of_same h
    have hs : (c.normalizer.apply a).kind ≠ .sequence := fun hs => hk ⟨hs, hkind ▸ hs⟩
    rw [order_of_other hk, pairOrder_of_same hm h hs]
    refine equalUnless_selfOrder .here fun x y hxy => ?_
    cases hxy with
    | here => rfl
    | items hxs hys =>
      rw [hxs] at hs
      exact absurd rfl hs

end Comparer

theorem Comparer.exact_refines_loose (c : Comparer) (hn : c.normalizer.Unwraps)
    (hm : c.options.nullComparison = .minValue) (hs : c.options.suppressErrors = false)
    {host : Nat → Value} {a b : Value} (ha : KeysUnique a ∧ KnownTo host a)
    (hb : KeysUnique b ∧ KnownTo host b) :
    c.exactEquals a a = true ∧
      (c.exactEquals a b = true → EqualUnless c.normalizer (c.Reaches a b) (c.compare a b) ∧
        ((∀ x y s, c.Reaches a b x y → c.normalizer.apply x = .text s →
            Decimal.isOutOfRange s = false) →
          BinaryOp.equal.apply c a b = .ok (.boolean true))) := by
  refine ⟨same_refl (hn.keepsKeys a ha.1).distinct, fun h => ?_⟩
  have hwalk : EqualUnless c.normalizer (c.Reaches a b) (c.compare a b) := by
    have ho := order_equalUnless hn hm ha hb h
    rw [compare]
    generalize c.order a b = r at ho ⊢
    cases ho with
    | equal hin => exact .equal hin
    | outOfRange hr ht he =>
      dsimp only
      rw [hs, if_neg Bool.false_ne_true]
      exact .outOfRange hr ht he
  refine ⟨hwalk, fun hin => ?_⟩
  have heq : c.compare a b = .ok (some .eq) := by
    generalize c.compare a b = r at hwalk ⊢
    cases hwalk with
    | equal => rfl
    | outOfRange hr ht he =>
      rw [hin _ _ _ hr ht] at he
      cases he
  show BinaryOp.equated c _ a b = _
  rw [BinaryOp.equated, equals, heq]
  rfl

/-- one box in two sequences, beside one mapping whose entries stand in another order and whose
numbers have another scale; a text out of range behind them is reached -/
theorem Comparer.exact_refines_loose_boxed :
    let c : Comparer := ⟨{}, .unwrapping⟩
    let nines : Value := .text "99999999999999999999999999999999"
    let box : Value := .hostObject ⟨7, "Box"⟩ (some (.sequence [.text "a", nines]))
    let a : Value := .sequence
      [.mapping [(.text "k", .boolean true), (.number Decimal.one, .null)], box]
    let b : Value := .sequence
      [.mapping [(.number { negative := false, mantissa := 10, scale := 1 }, .null),
        (.text "k", .boolean true)], box]
    let host : Nat → Value := fun _ => box
    (c.normalizer.Unwraps ∧ (KeysUnique a ∧ KnownTo host a) ∧ KeysUnique b ∧ KnownTo host b) ∧
      c.exactEquals a b = true ∧
      EqualUnless c.normalizer (c.Reaches a b) (c.compare a b) ∧
      Decimal.isOutOfRange "99999999999999999999999999999999" = true := by
  intro c nines box a b host
  have text (s : String) : KeysUnique (.text s) ∧ KnownTo host (.text s) :=
    ⟨.plain rfl nofun, .plain rfl nofun⟩
  have pair {v w : Value} (hv : KeysUnique v ∧ KnownTo host v)
      (hw : KeysUnique w ∧ KnownTo host w) :
      KeysUnique (.sequence [v, w]) ∧ KnownTo host (.sequence [v, w]) := by
    refine ⟨.sequence ?_, .sequence ?_⟩
    · rw [List.forall_mem_cons, List.forall_mem_singleton]
      exact ⟨hv.1, hw.1⟩
    · rw [List.forall_mem_cons, List.forall_mem_singleton]
      exact ⟨hv.2, hw.2⟩
  have plain {es : Entries} (hu : es.Pairwise fun e f => e.1.same f.1 = false)
      (h : ∀ e ∈ es, (e.1.kind.isCollection = false ∧ e.1.kind ≠ .hostObject) ∧
        e.2.kind.isCollection = false ∧ e.2.kind ≠ .hostObject) :
      KeysUnique (.mapping es) ∧ KnownTo host (.mapping es) :=
    ⟨.mapping hu (fun e he => .plain (h e he).1.1 (h e he).1.2)
        fun e he => .plain (h e he).2.1 (h e he).2.2,
      .mapping (fun e he => .plain (h e he).1.1 (h e he).1.2)
        fun e he => .plain (h e he).2.1 (h e he).2.2⟩
  have hbox : KeysUnique box ∧ KnownTo host box := by
    refine ⟨.hostObject fun v hv => ?_, .hostObject rfl fun v hv => ?_⟩
    · cases hv
      exact (pair (text _) (text _)).1
    · cases hv
      exact (pair (text _) (text _)).2
  have ha : KeysUnique a ∧ KnownTo host a := pair (plain (by decide) (by decide)) hbox
  have hb : KeysUnique b ∧ KnownTo host b := pair (plain (by decide) (by decide)) hbox
  have hn : c.normalizer.Unwraps := Normalizer.unwraps_unwrapping
  have he : c.exactEquals a b = true := by decide
  exact ⟨⟨hn, ha, hb⟩, he, ((c.exact_refines_loose hn rfl rfl ha hb).2 he).1, by decide⟩

end ExprLang
