import ExprLang.Proofs.Decimal.Order
import ExprLang.Proofs.Value.Equality

/-!
# What structural equality does not see

* `Value.SameAs v w`        the value `w` is equal to `v` and has distinct keys;
* `Value.Within R v w`      `w` is `v` with one part, at any depth, replaced by one that `R` allows;
* `Value.Rearranged v w`    `w` is the same number as `v`, has the same entries, or is the same thing;
* `Value.Restated v w`      `w` comes from `v` by rearranging parts of it, one after the other.

`same_congr` replaces both sides of a comparison by equal ones.  So the keys of a mapping stay
distinct when one of them is replaced by an equal one, and the whole stays equal
(`sameAs_replace_item`, `sameAs_replace_entry`).  `Within.sameAs` takes this to any depth, and
`Restated.sameAs` to any number of changes.  Equality sees all other changes: `restated_of_same`.
-/

namespace ExprLang

theorem Decimal.same_iff_units {a b : Decimal} : a.same b = true ↔ a.units = b.units := by
  rw [← compare_eq_iff_same, compare_eq_units, Std.compare_eq_iff_eq]

namespace Value

def SameAs (v w : Value) : Prop := KeysDistinct w ∧ v.same w = true

inductive Within (R : Value → Value → Prop) : Value → Value → Prop where
  | here {v w : Value} : R v w → Within R v w
  | item {pre post : List Value} {v w : Value} : Within R v w →
      Within R (.sequence (pre ++ v :: post)) (.sequence (pre ++ w :: post))
  | key {pre post : Entries} {k k' v : Value} : Within R k k' →
      Within R (.mapping (pre ++ (k, v) :: post)) (.mapping (pre ++ (k', v) :: post))
  | value {pre post : Entries} {k v v' : Value} : Within R v v' →
      Within R (.mapping (pre ++ (k, v) :: post)) (.mapping (pre ++ (k, v') :: post))

/-- the scale of a number, the sign of a zero and the order of entries may change, and what is known
of a thing of the host besides its identity -/
inductive Rearranged : Value → Value → Prop where
  | number {a b : Decimal} : a.units = b.units → Rearranged (.number a) (.number b)
  | entries {es fs : Entries} : es.Perm fs → Rearranged (.mapping es) (.mapping fs)
  | callable {x y : Handle} : x.identity = y.identity → Rearranged (.callable x) (.callable y)
  | hostObject {x y : Handle} {held held' : Option Value} : x.identity = y.identity →
      Rearranged (.hostObject x held) (.hostObject y held')

inductive Restated (v : Value) : Value → Prop where
  | refl : Restated v v
  | tail {u w : Value} : Restated v u → Within Rearranged u w → Restated v w

theorem KeysDistinct.sameAs {v : Value} (h : KeysDistinct v) : SameAs v v := ⟨h, same_refl h⟩

theorem SameAs.trans {u v w : Value} (hu : KeysDistinct u) (h : SameAs u v) (h' : SameAs v w) :
    SameAs u w :=
  ⟨h'.1, equivOn_keysDistinct.trans hu h.1 h'.1 h.2 h'.2⟩

theorem same_congr {a a' b b' : Value} (ha : KeysDistinct a) (hb : KeysDistinct b)
    (haa : SameAs a a') (hbb : SameAs b b') : a'.same b' = a.same b := by
  have h := equivOn_keysDistinct
  obtain ⟨ha', haa⟩ := haa
  obtain ⟨hb', hbb⟩ := hbb
  refine Bool.eq_iff_iff.2 ⟨fun hs => ?_, fun hs => ?_⟩
  · exact h.trans ha ha' hb haa (h.trans ha' hb' hb hs (h.symm hb hb' hbb))
  · exact h.trans ha' ha hb' (h.symm ha ha' haa) (h.trans ha hb hb' hs hbb)

/-! ## sequences -/

theorem sameAs_replace_item {pre post : List Value} {v w : Value}
    (h : KeysDistinct (.sequence (pre ++ v :: post))) (hw : SameAs v w) :
    SameAs (.sequence (pre ++ v :: post)) (.sequence (pre ++ w :: post)) := by
  have hi := h.items
  rw [List.forall_mem_append, List.forall_mem_cons] at hi
  obtain ⟨hpre, -, hpost⟩ := hi
  refine ⟨.sequence ?_, ?_⟩
  · rw [List.forall_mem_append, List.forall_mem_cons]
    exact ⟨hpre, hw.1, hpost⟩
  · show sameItems (pre ++ v :: post) (pre ++ w :: post) = true
    clear h
    induction pre with
    | nil =>
      show (v.same w && sameItems post post) = true
      rw [hw.2, sameItems_refl fun u hu => same_refl (hpost u hu)]
      rfl
    | cons u pre ih =>
      rw [List.forall_mem_cons] at hpre
      show (u.same u && sameItems (pre ++ v :: post) (pre ++ w :: post)) = true
      rw [same_refl hpre.1, ih hpre.2]
      rfl

/-! ## mappings -/

theorem same_mapping_iff {es fs : Entries} (he : KeysDistinct (.mapping es))
    (hf : KeysDistinct (.mapping fs)) :
    (mapping es).same (.mapping fs) = true ↔
      es.length = fs.length ∧ ∀ e ∈ es, ∃ f ∈ fs, e.1.same f.1 = true ∧ e.2.same f.2 = true := by
  rw [same, Bool.and_eq_true, beq_iff_eq,
    equivOn_keysDistinct.foundIn_iff he.entries.2 hf.entries.2 hf.entries.1]

theorem KeysDistinct.perm {es fs : Entries} (h : KeysDistinct (.mapping es)) (hp : es.Perm fs) :
    KeysDistinct (.mapping fs) := by
  have hd : ∀ e ∈ fs, KeysDistinct e.1 ∧ KeysDistinct e.2 :=
    fun e he => h.entries.2 e (hp.mem_iff.2 he)
  -- only between values with distinct keys is equality known to be symmetric
  have hsymm : ∀ {e f : Value × Value},
      (KeysDistinct e.1 → KeysDistinct f.1 → e.1.same f.1 = false) →
      (KeysDistinct f.1 → KeysDistinct e.1 → f.1.same e.1 = false) := by
    intro e f hef hf he
    rw [same_comm hf he]
    exact hef he hf
  have hpair := (hp.pairwise_iff hsymm).1 (h.entries.1.imp fun hef _ _ => hef)
  refine .mapping ?_ (fun e he => (hd e he).1) fun e he => (hd e he).2
  exact hpair.imp_of_mem fun he hf hef => hef (hd _ he).1 (hd _ hf).1

theorem sameAs_perm {es fs : Entries} (h : KeysDistinct (.mapping es)) (hp : es.Perm fs) :
    SameAs (.mapping es) (.mapping fs) := by
  refine ⟨h.perm hp, (same_mapping_iff h (h.perm hp)).2 ⟨hp.length_eq, fun e he => ?_⟩⟩
  have hd := h.entries.2 e he
  exact ⟨e, hp.mem_iff.1 he, same_refl hd.1, same_refl hd.2⟩

section
variable {pre post : Entries} {k k' v v' : Value}

theorem KeysDistinct.replace_entry (h : KeysDistinct (.mapping (pre ++ (k, v) :: post)))
    (hk : SameAs k k') (hv : KeysDistinct v') :
    KeysDistinct (.mapping (pre ++ (k', v') :: post)) := by
  obtain ⟨hp, hd⟩ := h.entries
  rw [List.forall_mem_append, List.forall_mem_cons] at hd
  obtain ⟨hpre, hkv, hpost⟩ := hd
  rw [List.pairwise_append, List.pairwise_cons] at hp
  obtain ⟨hp1, ⟨hkpost, hp2⟩, hcross⟩ := hp
  have hmem : ∀ e ∈ pre ++ (k', v') :: post, KeysDistinct e.1 ∧ KeysDistinct e.2 := by
    rw [List.forall_mem_append, List.forall_mem_cons]
    exact ⟨hpre, ⟨hk.1, hv⟩, hpost⟩
  refine .mapping ?_ (fun e he => (hmem e he).1) fun e he => (hmem e he).2
  rw [List.pairwise_append, List.pairwise_cons]
  refine ⟨hp1, ⟨fun f hf => ?_, hp2⟩, fun e he => ?_⟩
  · have hfd := (hpost f hf).1
    rw [same_congr hkv.1 hfd hk hfd.sameAs]
    exact hkpost f hf
  · have hed := (hpre e he).1
    have hcr := hcross e he
    rw [List.forall_mem_cons] at hcr ⊢
    refine ⟨?_, hcr.2⟩
    rw [same_congr hed hkv.1 hed.sameAs hk]
    exact hcr.1

theorem sameAs_replace_entry (h : KeysDistinct (.mapping (pre ++ (k, v) :: post)))
    (hk : SameAs k k') (hv : SameAs v v') :
    SameAs (.mapping (pre ++ (k, v) :: post)) (.mapping (pre ++ (k', v') :: post)) := by
  have h' := h.replace_entry hk hv.1
  refine ⟨h', (same_mapping_iff h h').2 ⟨?_, fun e he => ?_⟩⟩
  · rw [List.length_append, List.length_append, List.length_cons, List.length_cons]
  · have hd := h.entries.2 e he
    rcases List.mem_append.1 he with hpre | hrest
    · exact ⟨e, List.mem_append_left _ hpre, same_refl hd.1, same_refl hd.2⟩
    · rcases List.mem_cons.1 hrest with rfl | hpost
      · exact ⟨(k', v'), List.mem_append_right _ (List.mem_cons_self ..), hk.2, hv.2⟩
      · exact ⟨e, List.mem_append_right _ (List.mem_cons_of_mem _ hpost), same_refl hd.1,
          same_refl hd.2⟩

end

/-! ## any depth, any number of changes -/

theorem Within.sameAs {R : Value → Value → Prop} {v w : Value}
    (hR : ∀ {v w}, R v w → KeysDistinct v → SameAs v w) (h : Within R v w) (hv : KeysDistinct v) :
    SameAs v w := by
  induction h with
  | here h => exact hR h hv
  | item _ ih =>
    exact sameAs_replace_item hv (ih (hv.items _ (List.mem_append_right _ (List.mem_cons_self ..))))
  | key _ ih =>
    have hd := hv.entries.2 _ (List.mem_append_right _ (List.mem_cons_self ..))
    exact sameAs_replace_entry hv (ih hd.1) hd.2.sameAs
  | value _ ih =>
    have hd := hv.entries.2 _ (List.mem_append_right _ (List.mem_cons_self ..))
    exact sameAs_replace_entry hv hd.1.sameAs (ih hd.2)

theorem Rearranged.sameAs {v w : Value} (h : Rearranged v w) (hv : KeysDistinct v) :
    SameAs v w := by
  cases h with
  | number hu => exact ⟨.plain rfl, Decimal.same_iff_units.2 hu⟩
  | entries hp => exact sameAs_perm hv hp
  | callable hi => exact ⟨.plain rfl, beq_iff_eq.2 hi⟩
  | hostObject hi => exact ⟨.plain rfl, beq_iff_eq.2 hi⟩

theorem Restated.sameAs {v w : Value} (h : Restated v w) (hv : KeysDistinct v) : SameAs v w := by
  induction h with
  | refl => exact hv.sameAs
  | tail _ hw ih => exact ih.trans hv (hw.sameAs Rearranged.sameAs ih.1)

/-! ## no other changes -/

namespace Restated

theorem trans {u v w : Value} (h : Restated u v) (h' : Restated v w) : Restated u w := by
  induction h' with
  | refl => exact h
  | tail _ hw ih => exact ih.tail hw

theorem single {v w : Value} (h : Rearranged v w) : Restated v w := .tail .refl (.here h)

/-- changes of a part are changes of the whole -/
theorem lift {F : Value → Value} {v w : Value} (h : Restated v w)
    (hF : ∀ {v w}, Within Rearranged v w → Within Rearranged (F v) (F w)) :
    Restated (F v) (F w) := by
  induction h with
  | refl => exact .refl
  | tail _ hw ih => exact ih.tail (hF hw)

theorem entry {pre post : Entries} {k k' v v' : Value} (hk : Restated k k')
    (hv : Restated v v') :
    Restated (.mapping (pre ++ (k, v) :: post)) (.mapping (pre ++ (k', v') :: post)) := by
  have h1 := hk.lift (F := fun k => .mapping (pre ++ (k, v) :: post)) .key
  have h2 := hv.lift (F := fun v => .mapping (pre ++ (k', v) :: post)) .value
  exact h1.trans h2

theorem items {as bs : List Value} (pre : List Value)
    (h : ∀ a ∈ as, ∀ b ∈ bs, a.same b = true → Restated a b) (hs : sameItems as bs = true) :
    Restated (.sequence (pre ++ as)) (.sequence (pre ++ bs)) := by
  induction as generalizing pre bs with
  | nil =>
    cases bs with
    | nil => exact .refl
    | cons b bs => cases hs
  | cons a as ih =>
    cases bs with
    | nil => cases hs
    | cons b bs =>
      rw [sameItems, Bool.and_eq_true] at hs
      have hab := h a (List.mem_cons_self ..) b (List.mem_cons_self ..) hs.1
      have hrest := ih (pre ++ [b]) (fun a ha b hb => h a (List.mem_cons_of_mem _ ha) b
        (List.mem_cons_of_mem _ hb)) hs.2
      rw [← List.append_cons, ← List.append_cons] at hrest
      exact (hab.lift (F := fun v => .sequence (pre ++ v :: as)) .item).trans hrest

theorem pairs (pre : Entries) {ps : List ((Value × Value) × (Value × Value))}
    (h : ∀ p ∈ ps, Restated p.1.1 p.2.1 ∧ Restated p.1.2 p.2.2) :
    Restated (.mapping (pre ++ ps.map (·.1))) (.mapping (pre ++ ps.map (·.2))) := by
  induction ps generalizing pre with
  | nil => exact .refl
  | cons p ps ih =>
    rw [List.forall_mem_cons] at h
    have hrest := ih (pre ++ [p.2]) h.2
    rw [← List.append_cons, ← List.append_cons] at hrest
    exact (entry h.1.1 h.1.2).trans hrest

end Restated

theorem restated_of_same {a b : Value} (ha : KeysDistinct a) (hb : KeysDistinct b)
    (h : a.same b = true) : Restated a b := by
  induction ha generalizing b with
  | @plain v hc =>
    unfold same at h
    split at h
    · exact .refl
    · rw [beq_iff_eq.1 h]
      exact .refl
    · exact .single (.number (Decimal.same_iff_units.1 h))
    · rw [beq_iff_eq.1 h]
      exact .refl
    · rw [beq_iff_eq.1 h]
      exact .refl
    · rw [beq_iff_eq.1 h]
      exact .refl
    · cases hc
    · cases hc
    · exact .single (.callable (beq_iff_eq.1 h))
    · exact .single (.hostObject (beq_iff_eq.1 h))
    · cases h
  | sequence _ ih =>
    cases b with
    | sequence bs => exact Restated.items [] (fun a ha b hb' => ih a ha (hb.items b hb')) h
    | _ => cases h
  | @mapping es hu hk hv ihk ihv =>
    cases b with
    | mapping fs =>
      rw [same, Bool.and_eq_true, beq_iff_eq] at h
      obtain ⟨ps, rfl, hperm, hps⟩ := equivOn_keysDistinct.pairs_of_foundIn
        (fun e he => ⟨hk e he, hv e he⟩) hb.entries.2 hb.entries.1 hu h.1 h.2
      refine (Restated.pairs [] fun p hp => ?_).trans (.single (.entries hperm))
      have hd := hb.entries.2 p.2 (hperm.mem_iff.1 (List.mem_map_of_mem hp))
      have he : p.1 ∈ ps.map (·.1) := List.mem_map_of_mem hp
      exact ⟨ihk p.1 he hd.1 (hps p hp).1, ihv p.1 he hd.2 (hps p hp).2⟩
    | _ => cases h

/-- an equivalence that does not see how values are arranged, and sees all else; a part can be replaced
by an equal one -/
theorem same_structural {a b c : Value} (ha : KeysDistinct a) (hb : KeysDistinct b)
    (hc : KeysDistinct c) :
    a.same a = true ∧ (a.same b = true → b.same a = true) ∧
      (a.same b = true → b.same c = true → a.same c = true) ∧
      (∀ a' b', Restated a a' → Restated b b' → a'.same b' = a.same b) ∧
      (a.same b = true ↔ Restated a b) ∧ ∀ a', Within SameAs a a' → SameAs a a' := by
  have h := equivOn_keysDistinct
  refine ⟨same_refl ha, h.symm ha hb, h.trans ha hb hc, fun a' b' hra hrb => ?_, ?_, fun a' hw => ?_⟩
  · exact same_congr ha hb (hra.sameAs ha) (hrb.sameAs hb)
  · exact ⟨restated_of_same ha hb, fun hr => (hr.sameAs ha).2⟩
  · exact hw.sameAs (fun hs _ => hs) ha

/-- a mapping with a mapping for a key: in this one the entries stand in another order, a number has
another scale, and a zero another sign -/
theorem same_structural_nested_key :
    let outer (es : Entries) : Value :=
      .mapping [(.text "n", .null), (.mapping es, .sequence [.boolean true])]
    let zero : Value := .number { negative := true, mantissa := 0, scale := 0 }
    let one : Value := .number { negative := false, mantissa := 10, scale := 1 }
    let a := outer [(.number Decimal.one, .null), (.text "k", .number Decimal.zero)]
    let b := outer [(.text "k", zero), (one, .null)]
    KeysDistinct a ∧ KeysDistinct b ∧ Restated a b ∧ a.same a = true ∧ b.same a = true ∧
      (a.same b = true → b.same a = true) ∧
      SameAs a (outer [(one, .null), (.text "k", .number Decimal.zero)]) := by
  intro outer zero one a b
  have ha : KeysDistinct a := by decide
  have hb : KeysDistinct b := by decide
  have inKey {R : Value → Value → Prop} {es fs : Entries}
      (h : Within R (.mapping es) (.mapping fs)) : Within R (outer es) (outer fs) :=
    @Within.key R [(.text "n", .null)] [] _ _ _ h
  have scaled {R : Value → Value → Prop} (h : R (.number Decimal.one) one) :
      Within R a (outer [(one, .null), (.text "k", .number Decimal.zero)]) :=
    inKey (@Within.key R [] _ _ _ _ (.here h))
  have hr : Restated a b := by
    have h1 := Restated.tail .refl (scaled (.number (by decide)))
    have h2 := h1.tail (inKey (@Within.value _ [(one, .null)] [] _ _ zero
      (.here (.number (by decide)))))
    exact h2.tail (inKey (.here (.entries (.swap ..))))
  obtain ⟨hrefl, -, -, hrest, -, hpart⟩ := same_structural ha ha ha
  refine ⟨ha, hb, hr, hrefl, ?_, (same_structural ha hb ha).2.1, ?_⟩
  · rw [hrest b a hr .refl]
    exact hrefl
  · exact hpart _ (scaled ⟨.plain rfl, by decide⟩)

end Value

end ExprLang
