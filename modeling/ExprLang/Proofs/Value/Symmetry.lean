import ExprLang.Proofs.Value.Antisymmetry

/-!
# Loose equality the other way round

* `Comparison.equality r`   what a comparison says about loose equality;
* `Concur r s`              two answers are the same, or both are errors;
* `respelled s t`           the text `s` reads as a date-time or duration, but whether it reads as
                            `t` and whether it is the text of `t` are different;
* `Respelled v w`           one of the values is such a text and the other one such a value.

The order of mixed kinds prefers a side, but most of them have no conversion and so are unequal both
ways.  The only ones that have are texts beside date-times and durations: on the right the text is
read, on the left it is compared with the other value's text (`convertedOrder_read`,
`convertedOrder_spelled`).  Loose equality is symmetric as long as no walk comes to two values of
which these say different things (`equals_symmetric`); two values of which they do are equal one
way only (`equals_respelled`).
-/

namespace ExprLang

open Value

/-! ## answers -/

def Comparison.equality (r : Comparison) : Except ComparisonError (Option Bool) :=
  r.map fun o => o.map (· == .eq)

def Concur : Except ComparisonError (Option Bool) → Except ComparisonError (Option Bool) → Prop
  | .ok r, .ok s => r = s
  | .error _, .error _ => True
  | _, _ => False

theorem concur_of_reversed {r s : Comparison} (h : Reversed r s) :
    Concur r.equality s.equality := by
  rcases h.cases with ⟨o, rfl, rfl⟩ | ⟨e, e', rfl, rfl⟩
  · rcases o with _ | _ | _ | _ <;> exact rfl
  · trivial

theorem mirroring_concur : Mirroring fun r s => Concur r.equality s.equality where
  equal := rfl
  lengths m n := concur_of_reversed (mirroring_reversed.lengths m n)
  andThen {r s p q} h hpq := by
    cases r with
    | error e =>
      cases s with
      | error e' => trivial
      | ok u => exact h.elim
    | ok o =>
      cases s with
      | error e' => exact h.elim
      | ok u =>
        -- only "equal" goes on, and both results are that or none is
        rcases o with _ | _ | _ | _ <;> rcases u with _ | _ | _ | _ <;>
          first | exact hpq rfl | exact h | cases h

/-! ## reading and spelling -/

def respelled (s : String) : Value → Bool
  | .dateTime t => (DateTime.ofText? s).any fun u => (u == t) != (s == t.toText)
  | .duration d => (Duration.ofText? s).any fun e => (e == d) != (s == d.toText)
  | _ => false

/-- one of the values is a text that reading and spelling the other one tell apart -/
def Respelled (v w : Value) : Prop :=
  (∃ s, v = .text s ∧ respelled s w = true) ∨ ∃ s, w = .text s ∧ respelled s v = true

/-- the order of a value of text `text` and a text `s` on its right, which may read as `read` -/
def readOrder {α : Type} (order : α → Ordering) (text : String) (read : Option α) (s : String) :
    Ordering :=
  match read with
  | some u => order u
  | none => compare text s

theorem beq_compare (s t : String) : (compare s t == .eq) = (s == t) := by
  rw [Bool.eq_iff_iff, beq_iff_eq, beq_iff_eq, Std.compare_eq_iff_eq]

/-- read on the right and compared as a text on the left, `s` is equal both ways or unequal both
ways unless reading and spelling differ -/
theorem readOrder_agrees {α : Type} [BEq α] {t : α} {order : α → Ordering}
    (ho : ∀ u, (order u == .eq) = (u == t)) (text : String) (read : Option α) (s : String) :
    (readOrder order text read s == .eq) = (compare s text == .eq) ↔
      (read.any fun u => (u == t) != (s == text)) = false := by
  rw [beq_compare]
  cases read with
  | none =>
    rw [readOrder, beq_compare, Option.any_none]
    exact ⟨fun _ => rfl, fun _ => BEq.comm⟩
  | some u =>
    rw [readOrder, ho, Option.any_some, bne_eq_false_iff_eq]

/-! ## kinds without a conversion -/

def Value.Kind.isTemporal : Kind → Bool
  | .dateTime | .duration => true
  | _ => false

theorem Value.Kind.mixed_iff {k l : Kind} : k.mixed l = true ↔
    k ≠ l ∧ (k ≠ .null ∧ k ≠ .boolean) ∧ (l ≠ .null ∧ l ≠ .boolean) ∧
      ¬ (k = .number ∧ l = .text) ∧ ¬ (k = .text ∧ l = .number) ∧
      (k.isOrdered || l.isOrdered) = true := by
  cases k <;> cases l <;> decide

theorem Value.Kind.mixed_comm {k l : Kind} (h : k.mixed l = true) : l.mixed k = true := by
  rw [mixed_iff] at h ⊢
  obtain ⟨hne, hk, hl, hnt, htn, ho⟩ := h
  exact ⟨hne.symm, hl, hk, fun h => htn h.symm, fun h => hnt h.symm, Bool.or_comm .. ▸ ho⟩

/-- does a value of the one kind stand beside a text of which a value of that kind can be read -/
def Value.Kind.converts (k l : Kind) : Prop :=
  k = .text ∧ l.isTemporal = true ∨ l = .text ∧ k.isTemporal = true

section
variable {a b : Value}

theorem convertTo_eq_none (f : NumberFormat) (hm : a.kind.mixed b.kind = true)
    (h : ¬ a.kind.converts b.kind) : a.convertTo f b.kind = none := by
  cases a <;> cases b <;>
    first | rfl | exact absurd (.inl ⟨rfl, rfl⟩) h | exact absurd (.inr ⟨rfl, rfl⟩) h | cases hm

theorem pairOrder_of_mixed (o : ComparerOptions) (hm : a.kind.mixed b.kind = true) :
    pairOrder o a b = .ok (convertedOrder o.numberFormat a b) := by
  obtain ⟨hne, ha, hb, hnt, htn, -⟩ := Kind.mixed_iff.1 hm
  -- of two kinds among numbers and texts, which are different, one is each
  have apart (hx : a.kind = .number ∨ a.kind = .text) (hy : b.kind = .number ∨ b.kind = .text) :
      False := by
    rcases hx with hx | hx <;> rcases hy with hy | hy
    · exact hne (hx.trans hy.symm)
    · exact hnt ⟨hx, hy⟩
    · exact htn ⟨hx, hy⟩
    · exact hne (hx.trans hy.symm)
  have hnum : ¬ (isNumeric a && isNumeric b) = true := by
    rw [Bool.and_eq_true]
    exact fun h => apart (kind_of_isNumeric h.1) (kind_of_isNumeric h.2)
  have htext : ¬ (isNumeric a && isText b || isNumeric b && isText a) = true := by
    rw [Bool.or_eq_true, Bool.and_eq_true, Bool.and_eq_true]
    rintro (h | h)
    · exact apart (kind_of_isNumeric h.1) (.inr (kind_of_isText h.2))
    · exact apart (.inr (kind_of_isText h.2)) (kind_of_isNumeric h.1)
  rw [pairOrder_eq_plainOrder o ha hb, plainOrder, if_neg hnum, if_neg htext]

theorem convertedOrder_mixed (f : NumberFormat) (hm : a.kind.mixed b.kind = true) :
    convertedOrder f a b =
      (b.convertTo f a.kind).elim ((a.convertTo f b.kind).elim (some .lt) (naturalOrder · b))
        (naturalOrder a) := by
  obtain ⟨hne, -, -, -, -, ho⟩ := Kind.mixed_iff.1 hm
  rw [convertedOrder, naturalOrder_eq_none hne]
  dsimp only
  rw [if_pos ho]
  cases b.convertTo f a.kind with
  | some v => rfl
  | none => cases a.convertTo f b.kind <;> rfl

theorem convertedOrder_eq_lt (f : NumberFormat) (hm : a.kind.mixed b.kind = true)
    (h : ¬ a.kind.converts b.kind) : convertedOrder f a b = some .lt := by
  have hab : a.convertTo f b.kind = none := convertTo_eq_none f hm h
  have hba : b.convertTo f a.kind = none :=
    convertTo_eq_none f (Kind.mixed_comm hm) fun h' => h h'.symm
  rw [convertedOrder_mixed f hm, hba, hab]
  rfl

end

/-! ## texts beside date-times and durations -/

section
variable (f : NumberFormat) (s : String)

theorem convertedOrder_read (t : DateTime) :
    convertedOrder f (.dateTime t) (.text s) =
      some (readOrder t.compare t.toText (DateTime.ofText? s) s) := by
  rw [convertedOrder_mixed (a := .dateTime t) (b := .text s) f rfl]
  show ((DateTime.ofText? s).map Value.dateTime).elim _ _ = _
  cases DateTime.ofText? s <;> rfl

theorem convertedOrder_read_duration (d : Duration) :
    convertedOrder f (.duration d) (.text s) =
      some (readOrder d.compare d.toText (Duration.ofText? s) s) := by
  rw [convertedOrder_mixed (a := .duration d) (b := .text s) f rfl]
  show ((Duration.ofText? s).map Value.duration).elim _ _ = _
  cases Duration.ofText? s <;> rfl

theorem convertedOrder_spelled {v : Value} (h : v.kind.isTemporal = true) :
    convertedOrder f (.text s) v = some (compare s v.display) := by
  cases v <;> first | rfl | cases h

/-- both ways there is an order, and they agree on equality just if reading and spelling do -/
theorem convertedOrder_text {v : Value} (h : v.kind.isTemporal = true) :
    ∃ x y, convertedOrder f v (.text s) = some x ∧ convertedOrder f (.text s) v = some y ∧
      ((x == .eq) = (y == .eq) ↔ respelled s v = false) := by
  cases v with
  | dateTime t =>
    refine ⟨_, _, convertedOrder_read f s t, convertedOrder_spelled f s h, ?_⟩
    exact readOrder_agrees (fun u => by
      rw [Bool.eq_iff_iff, beq_iff_eq, beq_iff_eq, DateTime.compare_eq_iff, eq_comm]) ..
  | duration d =>
    refine ⟨_, _, convertedOrder_read_duration f s d, convertedOrder_spelled f s h, ?_⟩
    exact readOrder_agrees (fun e => by
      rw [Bool.eq_iff_iff, beq_iff_eq, beq_iff_eq, Duration.compare_eq_iff, eq_comm]) ..
  | _ => cases h

theorem concur_text {v : Value} (h : v.kind.isTemporal = true) (hs : respelled s v = false) :
    Concur (Comparison.equality (.ok (convertedOrder f v (.text s))))
      (Comparison.equality (.ok (convertedOrder f (.text s) v))) := by
  obtain ⟨x, y, hx, hy, hiff⟩ := convertedOrder_text f s h
  rw [hx, hy]
  exact congrArg some (hiff.2 hs)

end

theorem isTemporal_of_respelled {s : String} {v : Value} (h : respelled s v = true) :
    v.kind.isTemporal = true := by
  cases v <;> first | rfl | cases h

theorem mixed_text {k : Kind} (h : k.isTemporal = true) : Kind.mixed .text k = true := by
  cases k <;> first | rfl | cases h

theorem Value.eq_text {v : Value} (h : v.kind = .text) : ∃ s, v = .text s := by
  cases v <;> cases h
  exact ⟨_, rfl⟩

theorem concur_comm {r s : Except ComparisonError (Option Bool)} (h : Concur r s) :
    Concur s r := by
  cases r <;> cases s <;> first | exact Eq.symm h | exact h

theorem pairOrder_concur (o : ComparerOptions) {a b : Value} (ha : KeysUnique a)
    (hb : KeysUnique b) (h : ¬ Respelled a b) :
    Concur (pairOrder o a b).equality (pairOrder o b a).equality := by
  rw [Respelled, not_or] at h
  by_cases hm : a.kind.mixed b.kind = true
  · have hm' : b.kind.mixed a.kind = true := Kind.mixed_comm hm
    rw [pairOrder_of_mixed o hm, pairOrder_of_mixed o hm']
    by_cases hc : a.kind.converts b.kind
    · rcases hc with ⟨hk, ht⟩ | ⟨hk, ht⟩
      · obtain ⟨s, rfl⟩ := Value.eq_text hk
        have hs : respelled s b = false := Bool.eq_false_iff.2 fun hr => h.1 ⟨s, rfl, hr⟩
        exact concur_comm (concur_text _ s ht hs)
      · obtain ⟨s, rfl⟩ := Value.eq_text hk
        have hs : respelled s a = false := Bool.eq_false_iff.2 fun hr => h.2 ⟨s, rfl, hr⟩
        exact concur_text _ s ht hs
    · rw [convertedOrder_eq_lt _ hm hc, convertedOrder_eq_lt _ hm' fun h => hc h.symm]
      rfl
  · exact concur_of_reversed (pairOrder_reversed o ha hb (Bool.eq_false_iff.2 hm))

/-! ## all values -/

namespace Comparer

variable {c : Comparer} {a b : Value}

theorem order_concur (hn : c.normalizer.KeepsKeys) (ha : KeysUnique a) (hb : KeysUnique b)
    (h : ∀ x y, c.Reaches a b x y → ¬ Respelled (c.normalizer.apply x) (c.normalizer.apply y)) :
    Concur (c.order a b).equality (c.order b a).equality := by
  refine order_related mirroring_concur (P := fun a b => (KeysUnique a ∧ KeysUnique b) ∧
    ∀ x y, c.Reaches a b x y → ¬ Respelled (c.normalizer.apply x) (c.normalizer.apply y)) ?_ ?_
    ⟨⟨ha, hb⟩, h⟩
  · intro a b x y xs ys h hxs hys hl hxy
    exact ⟨keysUnique_items hn h.1 hxs hys hxy, fun u v huv => h.2 u v (.items hxs hys hl hxy huv)⟩
  · intro a b h
    exact pairOrder_concur c.options (hn a h.1.1) (hn b h.1.2) (h.2 a b .here)

theorem equals_concur (h : Concur (c.order a b).equality (c.order b a).equality) :
    Concur (c.equals a b) (c.equals b a) := by
  rw [equals, equals, compare, compare]
  cases hr : c.order a b with
  | ok r =>
    cases hs : c.order b a with
    | ok s => rwa [hr, hs] at h
    | error e =>
      rw [hr, hs] at h
      exact h.elim
  | error e =>
    cases hs : c.order b a with
    | ok s =>
      rw [hr, hs] at h
      exact h.elim
    | error e' => cases c.options.suppressErrors <;> trivial

/-- a text on the left and a date-time or duration that reading and spelling tell apart -/
theorem equals_respelled {s : String} (hs : c.normalizer.apply a = .text s)
    (h : respelled s (c.normalizer.apply b) = true) :
    ∃ e : Bool, c.equals a b = .ok (some e) ∧ c.equals b a = .ok (some !e) := by
  have ht : (c.normalizer.apply b).kind.isTemporal = true := isTemporal_of_respelled h
  have hm : (Value.text s).kind.mixed (c.normalizer.apply b).kind = true := mixed_text ht
  obtain ⟨x, y, hx, hy, hiff⟩ := convertedOrder_text c.options.numberFormat s ht
  have hab : c.order a b = .ok (some y) := by
    rw [order_of_other (by rw [hs]; exact fun h => nomatch h.1), hs, pairOrder_of_mixed _ hm, hy]
  have hba : c.order b a = .ok (some x) := by
    rw [order_of_other (by rw [hs]; exact fun h => nomatch h.2), hs,
      pairOrder_of_mixed _ (Kind.mixed_comm hm), hx]
  have hne : (x == .eq) = !(y == .eq) := by
    rw [Bool.eq_not, ne_eq, hiff, h]
    exact nofun
  refine ⟨y == .eq, ?_, ?_⟩
  · rw [equals, compare, hab]
    rfl
  · rw [equals, compare, hba, ← hne]
    rfl

end Comparer

theorem BinaryOp.equated_agree_of_concur {c : Comparer} {a b : Value}
    (h : Concur (c.equals a b) (c.equals b a)) (test : Bool → Bool) :
    Agree (equated c test a b) (equated c test b a) := by
  rw [equated, equated]
  cases hr : c.equals a b with
  | ok r =>
    cases hs : c.equals b a with
    | ok s =>
      rw [hr, hs] at h
      exact congrArg (fun e : Option Bool => truth (e.map test)) h
    | error e =>
      rw [hr, hs] at h
      exact h.elim
  | error e =>
    cases hs : c.equals b a with
    | ok s =>
      rw [hr, hs] at h
      exact h.elim
    | error e' => trivial

theorem Comparer.equals_symmetric (c : Comparer) (hn : c.normalizer.KeepsKeys) {a b : Value}
    (ha : KeysUnique a) (hb : KeysUnique b) :
    ((∀ x y, c.Reaches a b x y → ¬ Respelled (c.normalizer.apply x) (c.normalizer.apply y)) →
      Concur (c.equals a b) (c.equals b a) ∧
        Agree (BinaryOp.equal.apply c a b) (BinaryOp.equal.apply c b a) ∧
        Agree (BinaryOp.notEqual.apply c a b) (BinaryOp.notEqual.apply c b a)) ∧
      (Respelled (c.normalizer.apply a) (c.normalizer.apply b) →
        (c.equals a b = .ok (some true) ∧ c.equals b a = .ok (some false)) ∨
          (c.equals a b = .ok (some false) ∧ c.equals b a = .ok (some true))) := by
  constructor
  · intro h
    have he : Concur (c.equals a b) (c.equals b a) := equals_concur (order_concur hn ha hb h)
    exact ⟨he, BinaryOp.equated_agree_of_concur he _, BinaryOp.equated_agree_of_concur he _⟩
  · rintro (⟨s, hs, hr⟩ | ⟨s, hs, hr⟩)
    · obtain ⟨e, hab, hba⟩ := equals_respelled hs hr
      cases e
      · exact .inr ⟨hab, hba⟩
      · exact .inl ⟨hab, hba⟩
    · obtain ⟨e, hba, hab⟩ := equals_respelled hs hr
      cases e
      · exact .inl ⟨hab, hba⟩
      · exact .inr ⟨hab, hba⟩

/-- a date-time beside its own text, within sequences of which further items are not reached, and
beside a shorter text of it -/
theorem Comparer.equals_symmetric_spelled :
    let c : Comparer := {}
    let day : Value := .dateTime { day := 739007, second := 0, nano := 0 }
    let short : Value := .text "2024-05-01"
    let a : Value := .sequence [.text "2024-05-01 00:00:00", .text "2.50"]
    let b : Value := .sequence [day, .null]
    (c.normalizer.KeepsKeys ∧ KeysUnique a ∧ KeysUnique b ∧
      (∀ x y, c.Reaches a b x y → ¬ Respelled (c.normalizer.apply x) (c.normalizer.apply y)) ∧
      Concur (c.equals a b) (c.equals b a)) ∧
      KeysUnique day ∧ KeysUnique short ∧ Respelled day short ∧
        ((c.equals day short = .ok (some true) ∧ c.equals short day = .ok (some false)) ∨
          (c.equals day short = .ok (some false) ∧ c.equals short day = .ok (some true))) := by
  intro c day short a b
  have plain {v : Value} (h : v.kind.isCollection = false) (hk : v.kind ≠ .hostObject) :
      KeysUnique v := .plain h hk
  have ha : KeysUnique a := .sequence (by
    rw [List.forall_mem_cons, List.forall_mem_singleton]
    exact ⟨plain rfl nofun, plain rfl nofun⟩)
  have hb : KeysUnique b := .sequence (by
    rw [List.forall_mem_cons, List.forall_mem_singleton]
    exact ⟨plain rfl nofun, plain rfl nofun⟩)
  have hkeep : c.normalizer.KeepsKeys := Normalizer.keepsKeys_identity
  have hfull : respelled "2024-05-01 00:00:00" day = false := by decide +kernel
  have hr : ∀ x y, c.Reaches a b x y → ¬ Respelled x y := by
    intro x y h
    rcases h with _ | ⟨hxs, hys, -, hm, h⟩
    · rintro (⟨s, hs, -⟩ | ⟨s, hs, -⟩)
      · exact Value.noConfusion (show a = .text s from hs)
      · exact Value.noConfusion (show b = .text s from hs)
    · cases hxs
      cases hys
      rcases hm with _ | ⟨-, _ | ⟨-, hm⟩⟩
      · rcases h with _ | ⟨hxs, -⟩
        · rintro (⟨s, hs, hr⟩ | ⟨s, hs, -⟩)
          · cases hs
            rw [hfull] at hr
            cases hr
          · exact Value.noConfusion (show day = .text s from hs)
        · cases hxs
      · rcases h with _ | ⟨hxs, -⟩
        · rintro (⟨s, hs, hr⟩ | ⟨s, hs, -⟩) <;> cases hs
          cases hr
        · cases hxs
      · cases hm
  have hday : KeysUnique day := plain rfl (by decide)
  have hshort : KeysUnique short := plain rfl nofun
  have hd : Respelled day short := .inr ⟨_, rfl, by decide +kernel⟩
  exact ⟨⟨hkeep, ha, hb, hr, ((c.equals_symmetric hkeep ha hb).1 hr).1⟩, hday, hshort, hd,
    (c.equals_symmetric hkeep hday hshort).2 hd⟩

/-- the text of a date alone is equal to the date-time on its left, but not to that on its right -/
theorem Comparer.equals_date_alone :
    let c : Comparer := {}
    let day : Value := .dateTime { day := 739007, second := 0, nano := 0 }
    let text : Value := .text "2024-05-01"
    c.equals day text = .ok (some true) ∧ c.equals text day = .ok (some false) ∧
      BinaryOp.equal.apply c day text = .ok (.boolean true) ∧
      BinaryOp.equal.apply c text day = .ok (.boolean false) := by
  intro c day text
  have hm : day.kind.mixed text.kind = true := rfl
  have hread : c.order day text = .ok (some .eq) := by
    have ho : convertedOrder {} day text = some .eq := by decide +kernel
    rw [order_of_other (by decide)]
    exact (pairOrder_of_mixed {} hm).trans (congrArg Except.ok ho)
  have hspelled : c.order text day = .ok (some .lt) := by
    have ho : convertedOrder {} text day = some .lt := by decide +kernel
    rw [order_of_other (by decide)]
    exact (pairOrder_of_mixed {} (Kind.mixed_comm hm)).trans (congrArg Except.ok ho)
  have h : c.equals day text = .ok (some true) := by
    rw [equals, compare, hread]
    rfl
  have h' : c.equals text day = .ok (some false) := by
    rw [equals, compare, hspelled]
    rfl
  refine ⟨h, h', ?_, ?_⟩
  · show BinaryOp.equated c _ day text = _
    rw [BinaryOp.equated, h]
    rfl
  · show BinaryOp.equated c _ text day = _
    rw [BinaryOp.equated, h']
    rfl

end ExprLang
