import ExprLang.Value.Normalizer

/-!
# Structural equality is an equivalence

* `Value.KeysDistinct v`   no mapping in the value, however deep, has two structurally equal keys;
* `Value.KeysUnique v`     nor has one in what a host object stands for;
* `Value.EquivOn D`        structural equality is symmetric and transitive on the values in `D`.

A mapping is compared by looking up its keys in the other one.  If the keys of both are unique, every
look-up has at most one answer (`EquivOn.foundIn_iff`), and two mappings of one length find each
other's entries (`exists_pairs`).  `equivOn_keysDistinct` is by the size of the values: keys
and values are smaller than their mapping.  With distinct keys a value is also equal to itself
(`same_refl`).  Mappings are built with unique keys: `keysUnique_ofList`.
-/

namespace ExprLang

/-- as many things that are related to different ones are paired with all of these -/
theorem exists_pairs {α β : Type} {R : α → β → Prop} {as : List α} {bs : List β}
    (h : ∀ a ∈ as, ∃ b ∈ bs, R a b) (hu : as.Pairwise fun a a' => ∀ b, R a b → ¬ R a' b)
    (hl : as.length = bs.length) :
    ∃ ps : List (α × β), ps.map (·.1) = as ∧ (ps.map (·.2)).Perm bs ∧ ∀ p ∈ ps, R p.1 p.2 := by
  induction as generalizing bs with
  | nil =>
    rw [List.eq_nil_of_length_eq_zero hl.symm]
    exact ⟨[], rfl, .nil, nofun⟩
  | cons a as ih =>
    obtain ⟨b, hb, hab⟩ := h a (List.mem_cons_self ..)
    obtain ⟨l, r, rfl⟩ := List.append_of_mem hb
    rw [List.pairwise_cons] at hu
    -- what is related to another thing than `b` stands around it
    have hrest : ∀ a' ∈ as, ∃ b' ∈ l ++ r, R a' b' := by
      intro a' ha'
      obtain ⟨b', hb', hr⟩ := h a' (List.mem_cons_of_mem _ ha')
      rcases List.mem_append.1 hb' with hl | hr'
      · exact ⟨b', List.mem_append_left _ hl, hr⟩
      · rcases List.mem_cons.1 hr' with rfl | hr'
        · exact absurd hr (hu.1 a' ha' b' hab)
        · exact ⟨b', List.mem_append_right _ hr', hr⟩
    have hlen : as.length = (l ++ r).length := by
      simp only [List.length_append, List.length_cons] at hl ⊢
      omega
    obtain ⟨ps, rfl, hperm, hps⟩ := ih hrest hu.2 hlen
    refine ⟨(a, b) :: ps, rfl, ?_, List.forall_mem_cons.2 ⟨hab, hps⟩⟩
    exact (hperm.cons b).trans List.perm_middle.symm

theorem Decimal.same_symm {a b : Decimal} (h : a.same b = true) : b.same a = true :=
  (same_iff b a).2 ((same_iff a b).1 h).symm

theorem Decimal.same_trans {a b c : Decimal} (h : a.same b = true) (h' : b.same c = true) :
    a.same c = true := by
  rw [same_iff] at h h' ⊢
  have hb : (10 : Int) ^ b.scale ≠ 0 := by
    have := Int.pow_pos (n := (10 : Int)) (m := b.scale) (by decide)
    omega
  refine Int.eq_of_mul_eq_mul_right hb ?_
  calc a.signed * 10 ^ c.scale * 10 ^ b.scale
      = a.signed * 10 ^ b.scale * 10 ^ c.scale := Int.mul_right_comm ..
    _ = b.signed * 10 ^ a.scale * 10 ^ c.scale := by rw [h]
    _ = b.signed * 10 ^ c.scale * 10 ^ a.scale := Int.mul_right_comm ..
    _ = c.signed * 10 ^ b.scale * 10 ^ a.scale := by rw [h']
    _ = c.signed * 10 ^ a.scale * 10 ^ b.scale := Int.mul_right_comm ..

namespace Value

inductive KeysUnique : Value → Prop where
  | plain {v : Value} : v.kind.isCollection = false → v.kind ≠ .hostObject → KeysUnique v
  | sequence {items : List Value} : (∀ v ∈ items, KeysUnique v) → KeysUnique (.sequence items)
  | mapping {entries : Entries} : (entries.Pairwise fun e f => e.1.same f.1 = false) →
      (∀ e ∈ entries, KeysUnique e.1) → (∀ e ∈ entries, KeysUnique e.2) →
      KeysUnique (.mapping entries)
  | hostObject {h : Handle} {held : Option Value} : (∀ v, held = some v → KeysUnique v) →
      KeysUnique (.hostObject h held)

theorem KeysUnique.items {items : List Value} (h : KeysUnique (.sequence items)) :
    ∀ v ∈ items, KeysUnique v := by
  cases h with
  | plain hc => cases hc
  | sequence h => exact h

theorem KeysUnique.entries {entries : Entries} (h : KeysUnique (.mapping entries)) :
    (entries.Pairwise fun e f => e.1.same f.1 = false) ∧
      ∀ e ∈ entries, KeysUnique e.1 ∧ KeysUnique e.2 := by
  cases h with
  | plain hc => cases hc
  | mapping hp hk hv => exact ⟨hp, fun e he => ⟨hk e he, hv e he⟩⟩

theorem KeysUnique.held {h : Handle} {v : Value} (hu : KeysUnique (.hostObject h (some v))) :
    KeysUnique v := by
  cases hu with
  | plain _ hk => exact absurd rfl hk
  | hostObject hv => exact hv v rfl

inductive KeysDistinct : Value → Prop where
  | plain {v : Value} : v.kind.isCollection = false → KeysDistinct v
  | sequence {items : List Value} : (∀ v ∈ items, KeysDistinct v) → KeysDistinct (.sequence items)
  | mapping {entries : Entries} : (entries.Pairwise fun e f => e.1.same f.1 = false) →
      (∀ e ∈ entries, KeysDistinct e.1) → (∀ e ∈ entries, KeysDistinct e.2) →
      KeysDistinct (.mapping entries)

theorem KeysDistinct.items {items : List Value} (h : KeysDistinct (.sequence items)) :
    ∀ v ∈ items, KeysDistinct v := by
  cases h with
  | plain hc => cases hc
  | sequence h => exact h

theorem KeysDistinct.entries {entries : Entries} (h : KeysDistinct (.mapping entries)) :
    (entries.Pairwise fun e f => e.1.same f.1 = false) ∧
      ∀ e ∈ entries, KeysDistinct e.1 ∧ KeysDistinct e.2 := by
  cases h with
  | plain hc => cases hc
  | mapping hp hk hv => exact ⟨hp, fun e he => ⟨hk e he, hv e he⟩⟩

theorem KeysDistinct.find? {entries : Entries} (h : KeysDistinct (.mapping entries))
    {key v : Value} (hv : entries.find? key = some v) : KeysDistinct v := by
  obtain ⟨e, he, rfl⟩ := Option.map_eq_some_iff.1 hv
  exact (h.entries.2 e (List.mem_of_find?_eq_some he)).2

mutual

def decideKeysDistinct : (v : Value) → Decidable (KeysDistinct v)
  | .sequence items =>
    have := decideItemsDistinct items
    decidable_of_iff (∀ v ∈ items, KeysDistinct v) ⟨.sequence, KeysDistinct.items⟩
  | .mapping entries =>
    have := decideEntriesDistinct entries
    decidable_of_iff ((entries.Pairwise fun e f => e.1.same f.1 = false) ∧
        ∀ e ∈ entries, KeysDistinct e.1 ∧ KeysDistinct e.2)
      ⟨fun h => .mapping h.1 (fun e he => (h.2 e he).1) fun e he => (h.2 e he).2,
        KeysDistinct.entries⟩
  | .null | .boolean _ | .number _ | .text _ | .dateTime _ | .duration _ | .callable _
  | .hostObject _ _ => isTrue (.plain rfl)

def decideItemsDistinct : (items : List Value) → Decidable (∀ v ∈ items, KeysDistinct v)
  | [] => isTrue nofun
  | v :: items =>
    have := decideKeysDistinct v
    have := decideItemsDistinct items
    decidable_of_iff (KeysDistinct v ∧ ∀ w ∈ items, KeysDistinct w) List.forall_mem_cons.symm

def decideEntriesDistinct : (entries : List (Value × Value)) →
    Decidable (∀ e ∈ entries, KeysDistinct e.1 ∧ KeysDistinct e.2)
  | [] => isTrue nofun
  | (k, v) :: entries =>
    have := decideKeysDistinct k
    have := decideKeysDistinct v
    have := decideEntriesDistinct entries
    decidable_of_iff ((KeysDistinct k ∧ KeysDistinct v) ∧
      ∀ e ∈ entries, KeysDistinct e.1 ∧ KeysDistinct e.2) (by rw [List.forall_mem_cons])

end

instance : DecidablePred KeysDistinct := decideKeysDistinct

theorem keysDistinct_empty : KeysDistinct (.mapping []) := by decide

theorem KeysUnique.distinct {v : Value} (h : KeysUnique v) : KeysDistinct v := by
  induction h with
  | plain hc _ => exact .plain hc
  | sequence _ ih => exact .sequence ih
  | mapping hp _ _ ihk ihv => exact .mapping hp ihk ihv
  | hostObject => exact .plain rfl

structure EquivOn (D : Value → Prop) : Prop where
  symm : ∀ {a b}, D a → D b → a.same b = true → b.same a = true
  trans : ∀ {a b c}, D a → D b → D c → a.same b = true → b.same c = true → a.same c = true

/-! ## sequences and mappings -/

namespace EquivOn

variable {D : Value → Prop} (h : EquivOn D)
include h

theorem sameItems_symm {as bs : List Value} (ha : ∀ v ∈ as, D v) (hb : ∀ v ∈ bs, D v)
    (hs : sameItems as bs = true) : sameItems bs as = true := by
  induction as generalizing bs with
  | nil =>
    cases bs with
    | nil => rfl
    | cons b bs => cases hs
  | cons a as ih =>
    cases bs with
    | nil => cases hs
    | cons b bs =>
      rw [List.forall_mem_cons] at ha hb
      rw [sameItems, Bool.and_eq_true] at hs ⊢
      exact ⟨h.symm ha.1 hb.1 hs.1, ih ha.2 hb.2 hs.2⟩

theorem sameItems_trans {as bs cs : List Value} (ha : ∀ v ∈ as, D v) (hb : ∀ v ∈ bs, D v)
    (hc : ∀ v ∈ cs, D v) (hs : sameItems as bs = true) (hs' : sameItems bs cs = true) :
    sameItems as cs = true := by
  induction as generalizing bs cs with
  | nil =>
    cases bs with
    | nil => exact hs'
    | cons b bs => cases hs
  | cons a as ih =>
    cases bs with
    | nil => cases hs
    | cons b bs =>
      cases cs with
      | nil => cases hs'
      | cons c cs =>
        rw [List.forall_mem_cons] at ha hb hc
        rw [sameItems, Bool.and_eq_true] at hs hs' ⊢
        exact ⟨h.trans ha.1 hb.1 hc.1 hs.1 hs'.1, ih ha.2 hb.2 hc.2 hs.2 hs'.2⟩

/-- two entries of one key are one entry -/
theorem eq_of_same {es : Entries} (hd : ∀ e ∈ es, D e.1)
    (hu : es.Pairwise fun e f => e.1.same f.1 = false) {x y : Value × Value} (hx : x ∈ es)
    (hy : y ∈ es) (hxy : x.1.same y.1 = true) : x = y := by
  induction es with
  | nil => cases hx
  | cons e es ih =>
    rw [List.pairwise_cons] at hu
    rcases List.mem_cons.1 hx with rfl | hx'
    · rcases List.mem_cons.1 hy with rfl | hy'
      · rfl
      · rw [hu.1 y hy'] at hxy
        cases hxy
    · rcases List.mem_cons.1 hy with rfl | hy'
      · have hyx := h.symm (hd x hx) (hd y hy) hxy
        rw [hu.1 x hx'] at hyx
        cases hyx
      · exact ih (fun e he => hd e (List.mem_cons_of_mem _ he)) hu.2 hx' hy'

section
variable {as bs cs : Entries} (ha : ∀ e ∈ as, D e.1 ∧ D e.2) (hb : ∀ e ∈ bs, D e.1 ∧ D e.2)
  (hc : ∀ e ∈ cs, D e.1 ∧ D e.2) (hub : bs.Pairwise fun e f => e.1.same f.1 = false)
  (huc : cs.Pairwise fun e f => e.1.same f.1 = false)
include ha hb hub

/-- an entry is found if the other mapping has an equal one -/
theorem foundIn_iff :
    foundIn as bs = true ↔ ∀ e ∈ as, ∃ f ∈ bs, e.1.same f.1 = true ∧ e.2.same f.2 = true := by
  induction as with
  | nil => simp [foundIn]
  | cons e as ih =>
    rw [List.forall_mem_cons] at ha
    obtain ⟨k, v⟩ := e
    rw [foundIn, Bool.and_eq_true, ih ha.2, List.forall_mem_cons]
    refine and_congr_left fun _ => ?_
    cases hf : List.find? (fun f : Value × Value => k.same f.1) bs with
    | none =>
      rw [List.find?_eq_none] at hf
      refine ⟨nofun, ?_⟩
      intro h
      obtain ⟨f, hm, hk, -⟩ := h
      exact absurd hk (hf f hm)
    | some g =>
      have hg := List.mem_of_find?_eq_some hf
      have hkg : k.same g.1 = true := List.find?_some (p := fun f : Value × Value => k.same f.1) hf
      constructor
      · intro hv
        exact ⟨g, hg, hkg, hv⟩
      · intro hx
        obtain ⟨f, hm, hk, hv⟩ := hx
        have hfg := h.trans (hb f hm).1 ha.1.1 (hb g hg).1 (h.symm ha.1.1 (hb f hm).1 hk) hkg
        rwa [← h.eq_of_same (fun e he => (hb e he).1) hub hm hg hfg]

/-- mappings of one length are equal entry by entry -/
theorem pairs_of_foundIn (hua : as.Pairwise fun e f => e.1.same f.1 = false)
    (hl : as.length = bs.length) (hs : foundIn as bs = true) :
    ∃ ps : List ((Value × Value) × (Value × Value)), ps.map (·.1) = as ∧ (ps.map (·.2)).Perm bs ∧
      ∀ p ∈ ps, p.1.1.same p.2.1 = true ∧ p.1.2.same p.2.2 = true := by
  rw [h.foundIn_iff ha hb hub] at hs
  -- one entry for two keys would make the keys equal
  have hne : as.Pairwise fun e e' => ∀ f, (f ∈ bs ∧ e.1.same f.1 = true ∧ e.2.same f.2 = true) →
      ¬ (f ∈ bs ∧ e'.1.same f.1 = true ∧ e'.2.same f.2 = true) := by
    refine hua.imp_of_mem fun {e e'} he he' hee' f hf hf' => ?_
    have := h.trans (ha e he).1 (hb f hf.1).1 (ha e' he').1 hf.2.1
      (h.symm (ha e' he').1 (hb f hf.1).1 hf'.2.1)
    rw [hee'] at this
    cases this
  obtain ⟨ps, hfst, hsnd, hps⟩ := exists_pairs (fun e he => by
    obtain ⟨f, hf, hr⟩ := hs e he
    exact ⟨f, hf, hf, hr⟩) hne hl
  exact ⟨ps, hfst, hsnd, fun p hp => (hps p hp).2⟩

theorem foundIn_symm (hua : as.Pairwise fun e f => e.1.same f.1 = false)
    (hl : as.length = bs.length) (hs : foundIn as bs = true) : foundIn bs as = true := by
  obtain ⟨ps, rfl, hperm, hps⟩ := h.pairs_of_foundIn ha hb hub hua hl hs
  rw [h.foundIn_iff hb ha hua]
  intro f hf
  obtain ⟨p, hp, rfl⟩ := List.mem_map.1 (hperm.mem_iff.2 hf)
  have hpa := ha p.1 (List.mem_map_of_mem hp)
  exact ⟨p.1, List.mem_map_of_mem hp, h.symm hpa.1 (hb p.2 hf).1 (hps p hp).1,
    h.symm hpa.2 (hb p.2 hf).2 (hps p hp).2⟩

include hc huc

theorem foundIn_trans (hs : foundIn as bs = true) (hs' : foundIn bs cs = true) :
    foundIn as cs = true := by
  rw [h.foundIn_iff ha hb hub] at hs
  rw [h.foundIn_iff hb hc huc] at hs'
  rw [h.foundIn_iff ha hc huc]
  intro e he
  obtain ⟨f, hf, hk, hv⟩ := hs e he
  obtain ⟨g, hg, hk', hv'⟩ := hs' f hf
  exact ⟨g, hg, h.trans (ha e he).1 (hb f hf).1 (hc g hg).1 hk hk',
    h.trans (ha e he).2 (hb f hf).2 (hc g hg).2 hv hv'⟩

end

end EquivOn

/-! ## all values -/

theorem sizeOf_lt_of_mem_entries {entries : Entries} {e : Value × Value} (h : e ∈ entries) :
    sizeOf e.1 < sizeOf (Value.mapping entries) ∧ sizeOf e.2 < sizeOf (Value.mapping entries) := by
  have hs := List.sizeOf_lt_of_mem h
  obtain ⟨k, v⟩ := e
  simp only [Prod.mk.sizeOf_spec] at hs
  simp only [Value.mapping.sizeOf_spec]
  omega

/-- the values of a size under `n` -/
def Under (n : Nat) (v : Value) : Prop := sizeOf v < n ∧ KeysDistinct v

theorem Under.items {n : Nat} {items : List Value} (h : Under (n + 1) (.sequence items)) :
    ∀ v ∈ items, Under n v := by
  intro v hv
  have := sizeOf_lt_of_mem_items hv
  exact ⟨by have := h.1; omega, h.2.items v hv⟩

theorem Under.entries {n : Nat} {entries : Entries} (h : Under (n + 1) (.mapping entries)) :
    ∀ e ∈ entries, Under n e.1 ∧ Under n e.2 := by
  intro e he
  have hs := sizeOf_lt_of_mem_entries he
  have hu := h.2.entries.2 e he
  have := h.1
  exact ⟨⟨by omega, hu.1⟩, by omega, hu.2⟩

theorem equivOn_under (n : Nat) : EquivOn (Under n) := by
  induction n with
  | zero => exact ⟨fun h => absurd h.1 (Nat.not_lt_zero _), fun h => absurd h.1 (Nat.not_lt_zero _)⟩
  | succ n ih =>
    constructor
    · intro a b ha hb h
      unfold same at h
      split at h
      · rfl
      · exact beq_iff_eq.2 (beq_iff_eq.1 h).symm
      · exact Decimal.same_symm h
      · exact beq_iff_eq.2 (beq_iff_eq.1 h).symm
      · exact beq_iff_eq.2 (beq_iff_eq.1 h).symm
      · exact beq_iff_eq.2 (beq_iff_eq.1 h).symm
      · exact ih.sameItems_symm ha.items hb.items h
      · rw [Bool.and_eq_true, beq_iff_eq] at h
        rw [same, Bool.and_eq_true, beq_iff_eq]
        exact ⟨h.1.symm, ih.foundIn_symm ha.entries hb.entries hb.2.entries.1 ha.2.entries.1 h.1 h.2⟩
      · exact beq_iff_eq.2 (beq_iff_eq.1 h).symm
      · exact beq_iff_eq.2 (beq_iff_eq.1 h).symm
      · cases h
    · intro a b c ha hb hc h h'
      unfold same at h
      split at h
      · exact h'
      · rwa [beq_iff_eq.1 h]
      · cases c with
        | number z => exact Decimal.same_trans h h'
        | _ => cases h'
      · rwa [beq_iff_eq.1 h]
      · rwa [beq_iff_eq.1 h]
      · rwa [beq_iff_eq.1 h]
      · cases c with
        | sequence cs => exact ih.sameItems_trans ha.items hb.items hc.items h h'
        | _ => cases h'
      · cases c with
        | mapping cs =>
          rw [Bool.and_eq_true, beq_iff_eq] at h
          rw [same, Bool.and_eq_true, beq_iff_eq] at h' ⊢
          exact ⟨h.1.trans h'.1, ih.foundIn_trans ha.entries hb.entries hc.entries
            hb.2.entries.1 hc.2.entries.1 h.2 h'.2⟩
        | _ => cases h'
      · cases c with
        | callable z => exact beq_iff_eq.2 ((beq_iff_eq.1 h).trans (beq_iff_eq.1 h'))
        | _ => cases h'
      · cases c with
        | hostObject z held => exact beq_iff_eq.2 ((beq_iff_eq.1 h).trans (beq_iff_eq.1 h'))
        | _ => cases h'
      · cases h

theorem equivOn_keysDistinct : EquivOn KeysDistinct where
  symm {a b} ha hb :=
    (equivOn_under (sizeOf a + sizeOf b + 1)).symm ⟨by omega, ha⟩ ⟨by omega, hb⟩
  trans {a b c} ha hb hc :=
    (equivOn_under (sizeOf a + sizeOf b + sizeOf c + 1)).trans ⟨by omega, ha⟩ ⟨by omega, hb⟩
      ⟨by omega, hc⟩

theorem same_comm {a b : Value} (ha : KeysDistinct a) (hb : KeysDistinct b) : a.same b = b.same a :=
  Bool.eq_iff_iff.2 ⟨equivOn_keysDistinct.symm ha hb, equivOn_keysDistinct.symm hb ha⟩

theorem sameItems_refl {items : List Value} (h : ∀ v ∈ items, v.same v = true) :
    sameItems items items = true := by
  induction items with
  | nil => rfl
  | cons v items ih =>
    rw [List.forall_mem_cons] at h
    rw [sameItems, Bool.and_eq_true]
    exact ⟨h.1, ih h.2⟩

theorem same_refl {v : Value} (h : KeysDistinct v) : v.same v = true := by
  induction h with
  | @plain v hc =>
    cases v with
    | number a => exact (Decimal.same_iff a a).2 rfl
    | sequence items => cases hc
    | mapping entries => cases hc
    | null => rfl
    | _ => exact beq_self_eq_true _
  | sequence _ ih => exact sameItems_refl ih
  | @mapping entries hu hk hv ihk ihv =>
    have hd : ∀ e ∈ entries, KeysDistinct e.1 ∧ KeysDistinct e.2 := fun e he => ⟨hk e he, hv e he⟩
    rw [same, Bool.and_eq_true, beq_iff_eq, equivOn_keysDistinct.foundIn_iff hd hd hu]
    exact ⟨rfl, fun e he => ⟨e, he, ihk e he, ihv e he⟩⟩

/-! ## mappings as they are built -/

theorem mem_insert {es : Entries} {key v : Value} {e : Value × Value} (h : e ∈ es.insert key v) :
    (e.1 = key ∨ ∃ f ∈ es, e.1 = f.1) ∧ (e.2 = v ∨ ∃ f ∈ es, e.2 = f.2) := by
  induction es with
  | nil =>
    rw [Entries.insert, List.mem_singleton] at h
    subst h
    exact ⟨.inl rfl, .inl rfl⟩
  | cons f es ih =>
    obtain ⟨k, old⟩ := f
    rw [Entries.insert] at h
    split at h
    · rcases List.mem_cons.1 h with rfl | h
      · exact ⟨.inr ⟨_, List.mem_cons_self .., rfl⟩, .inl rfl⟩
      · exact ⟨.inr ⟨e, List.mem_cons_of_mem _ h, rfl⟩, .inr ⟨e, List.mem_cons_of_mem _ h, rfl⟩⟩
    · rcases List.mem_cons.1 h with rfl | h
      · exact ⟨.inr ⟨_, List.mem_cons_self .., rfl⟩, .inr ⟨_, List.mem_cons_self .., rfl⟩⟩
      · refine ⟨(ih h).1.imp_right ?_, (ih h).2.imp_right ?_⟩
        all_goals
          intro hf
          obtain ⟨f, hf, he⟩ := hf
          exact ⟨f, List.mem_cons_of_mem _ hf, he⟩

theorem pairwise_insert {es : Entries} {key : Value} (v : Value) (hk : KeysDistinct key)
    (hes : ∀ e ∈ es, KeysDistinct e.1) (h : es.Pairwise fun e f => e.1.same f.1 = false) :
    (es.insert key v).Pairwise fun e f => e.1.same f.1 = false := by
  induction es with
  | nil => exact List.pairwise_singleton ..
  | cons f es ih =>
    obtain ⟨k, old⟩ := f
    rw [List.forall_mem_cons] at hes
    rw [List.pairwise_cons] at h
    rw [Entries.insert]
    split
    · exact List.pairwise_cons.2 h
    · next hne =>
      refine List.pairwise_cons.2 ⟨fun e he => ?_, ih hes.2 h.2⟩
      rcases (mem_insert he).1 with hkey | ⟨f, hf, hkey⟩
      · rw [hkey, same_comm hes.1 hk]
        exact Bool.eq_false_iff.2 hne
      · rw [hkey]
        exact h.1 f hf

theorem KeysUnique.insert {es : Entries} {key v : Value} (h : KeysUnique (.mapping es))
    (hk : KeysUnique key) (hv : KeysUnique v) : KeysUnique (.mapping (es.insert key v)) := by
  have hes : ∀ e ∈ es, KeysDistinct e.1 := fun e he => (h.entries.2 e he).1.distinct
  refine .mapping (pairwise_insert v hk.distinct hes h.entries.1) (fun e he => ?_) fun e he => ?_
  · rcases (mem_insert he).1 with heq | ⟨f, hf, heq⟩
    · rwa [heq]
    · rw [heq]
      exact (h.entries.2 f hf).1
  · rcases (mem_insert he).2 with heq | ⟨f, hf, heq⟩
    · rwa [heq]
    · rw [heq]
      exact (h.entries.2 f hf).2

/-- a mapping that is built from any pairs has every key once -/
theorem keysUnique_ofList {pairs : List (Value × Value)}
    (h : ∀ p ∈ pairs, KeysUnique p.1 ∧ KeysUnique p.2) :
    KeysUnique (.mapping (Entries.ofList pairs)) := by
  have fold : ∀ (es : Entries), KeysUnique (.mapping es) →
      KeysUnique (.mapping (pairs.foldl (fun es p => Entries.insert es p.1 p.2) es)) := by
    induction pairs with
    | nil => exact fun es hes => hes
    | cons p pairs ih =>
      rw [List.forall_mem_cons] at h
      intro es hes
      rw [List.foldl_cons]
      exact ih h.2 _ (hes.insert h.1.1 h.1.2)
  exact fold [] (.mapping .nil nofun nofun)

end Value

end ExprLang
