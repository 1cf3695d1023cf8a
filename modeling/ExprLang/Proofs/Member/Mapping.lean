import Mathlib.Data.List.Find
import ExprLang.Proofs.Semantics.Giving
import ExprLang.Proofs.Semantics.Literal
import ExprLang.Proofs.Value.Structural

/-!
# Mappings by their members and by their positions

* `Value.Entries.Unhidden es`          no entry hides a property of mappings;
* `Evaluator.DescribesMap ev c m es`   what the members and the positions of `m` say about the
                                       entries `es` is of one map.

A look-up compares the key with the keys of the entries, `Contains` and `IndexOf` compare each item
with the key: over distinct keys these are the same (`any_keys`).  Entry `i` is found by its key, and
its key at position `i`, as two entries of one key are one (`find?_key`, `itemPosition?_key`).
`gives_index`, `gives_reading` and `gives_method` evaluate the expressions; with them `describesMap`
is about entries only.
-/

namespace ExprLang

open Value

/-! ## entries -/

/-- equal items have one position -/
theorem itemPosition?_of_same {items : List Value} (hi : KeysDistinct (.sequence items))
    {v w : Value} (hv : KeysDistinct v) (h : SameAs v w) :
    itemPosition? items w = itemPosition? items v := by
  unfold itemPosition?
  induction items with
  | nil => rfl
  | cons item items ih =>
    have hd := List.forall_mem_cons.1 hi.items
    rw [List.findIdx?_cons, List.findIdx?_cons, ih (.sequence hd.2),
      same_congr hd.1 hv hd.1.sameAs h]

namespace Value.Entries

def Unhidden (es : Entries) : Prop :=
  ∀ name ∈ ["Keys", "Values", "Count"], es.contains (.text name) = false

variable {es : Entries} (hd : ∀ e ∈ es, KeysDistinct e.1)
  (hu : es.Pairwise fun e f => e.1.same f.1 = false)
include hd

theorem keys_distinct : KeysDistinct (.sequence (es.map (·.1))) :=
  .sequence (List.forall_mem_map.2 hd)

theorem find?_of_same {key key' : Value} (hk : KeysDistinct key) (h : SameAs key key') :
    es.find? key' = es.find? key := by
  unfold find?
  congr 1
  refine List.find?_congr fun e he => ?_
  exact same_congr hk (hd e he) h (hd e he).sameAs

theorem any_keys {key : Value} (hk : KeysDistinct key) :
    (es.map (·.1)).any (·.same key) = es.contains key := by
  rw [Bool.eq_iff_iff, contains_iff, List.any_map, List.any_eq_true]
  refine exists_congr fun e => and_congr_right fun he => ?_
  rw [same_comm hk (hd e he)]
  rfl

include hu

theorem find?_key {i : Nat} (hi : i < es.length) : es.find? es[i].1 = some es[i].2 := by
  have hmem : es[i] ∈ es := List.getElem_mem hi
  have hself := same_refl (hd _ hmem)
  obtain ⟨e, he⟩ := Option.isSome_iff_exists.1
    (List.find?_isSome.2 ⟨es[i], hmem, hself⟩ : (List.find? (es[i].1.same ·.1) es).isSome)
  have hs := List.find?_some he
  have heq := equivOn_keysDistinct.eq_of_same hd hu hmem (List.mem_of_find?_eq_some he) hs
  rw [find?, he, heq]
  rfl

theorem itemPosition?_key {i : Nat} (hi : i < es.length) :
    itemPosition? (es.map (·.1)) es[i].1 = some i := by
  have hself := same_refl (hd _ (List.getElem_mem hi))
  refine List.findIdx?_eq_some_iff_getElem.2 ⟨by rwa [List.length_map], ?_, fun j hj => ?_⟩
  · rwa [List.getElem_map]
  · rw [List.getElem_map, List.pairwise_iff_getElem.1 hu j i _ hi hj]
    exact Bool.false_ne_true

end Value.Entries

/-! ## expressions about items -/

namespace Evaluator

variable {ev : Evaluator} {c : Context} {t k : Expr} {v key : Value}

section
variable {functions : Functions} (hh : ev.host = .standard functions)
include hh

theorem gives_reading (ht : ev.Gives c t (.ok v)) (name : String) :
    ev.Gives c (.member t name) (v.reading name) := gives_read hh ht name

theorem gives_method (ht : ev.Gives c t (.ok v)) (hk : ev.Gives c k (.ok key)) (name : String) :
    ev.Gives c (.call (.member t name) [k])
      ((v.dispatch name [key]).outcome functions v name [key]) :=
  gives_invoke hh ht (comes_one hk) name

variable {items : List Value} {p : Expr} {n : Decimal} {i : Nat}

theorem gives_contains (ht : ev.Gives c t (.ok (.sequence items))) (hk : ev.Gives c k (.ok v)) :
    ev.Gives c (.call (.member t "Contains") [k]) (.ok (.boolean (items.any (·.same v)))) :=
  gives_method hh ht hk "Contains"

theorem gives_indexOf (ht : ev.Gives c t (.ok (.sequence items))) (hk : ev.Gives c k (.ok v)) :
    ev.Gives c (.call (.member t "IndexOf") [k]) (.ok (positionValue (itemPosition? items v))) :=
  gives_method hh ht hk "IndexOf"

theorem gives_length (ht : ev.Gives c t (.ok (.sequence items))) :
    ∀ length ∈ ["Count", "Length"], ev.Gives c (.member t length) (.ok (.count items.length)) := by
  simp only [List.forall_mem_cons]
  exact ⟨gives_reading hh ht "Count", gives_reading hh ht "Length", nofun⟩

omit hh in
theorem gives_item (ht : ev.Gives c t (.ok (.sequence items))) (hp : ev.Gives c p (.ok (.number n)))
    (hn : n.toIndex? = some i) (hi : i < items.length) :
    ev.Gives c (.index t p) (.ok items[i]) := by
  refine gives_index ht hp fun earlier => ?_
  show itemAt items n = .ok items[i]
  have hn' : n.isIntegral = true := by
    unfold Decimal.toIndex? at hn
    split at hn
    · next h => exact (Bool.and_eq_true_iff.1 (Bool.and_eq_true_iff.1 h).1).1
    · cases hn
  rw [itemAt, checkedIndex, if_pos hn', hn]
  dsimp only
  rw [if_pos hi, Except.map, List.getElem?_eq_getElem hi]
  rfl

end

/-! ## the entries of a mapping -/

section
variable {functions : Functions} (hh : ev.host = .standard functions) {m : Expr}
  {es : Value.Entries} (hm : ev.Gives c m (.ok (.mapping es)))
include hm

theorem gives_entry (hk : ev.Gives c k (.ok key)) :
    ev.Gives c (.index m k) ((es.find? key).elim (.error (.keyNotFound key)) .ok) := by
  refine gives_index hm hk fun earlier => ?_
  rw [Host.valueAt]
  cases es.find? key <;> rfl

theorem gives_entry_iff (hk : ev.Gives c k (.ok key)) :
    ev.Gives c (.index m k) (.ok v) ↔ es.find? key = some v := by
  rw [gives_iff (gives_entry hm hk)]
  cases es.find? key with
  | none => exact ⟨nofun, nofun⟩
  | some w =>
    rw [Option.elim_some, Except.ok.injEq, Option.some.injEq]

include hh

theorem gives_containsKey (hk : ev.Gives c k (.ok key)) :
    ev.Gives c (.call (.member m "ContainsKey") [k]) (.ok (.boolean (es.contains key))) :=
  gives_method hh hm hk "ContainsKey"

/-- a property that no entry hides -/
theorem gives_property {name : String} (hn : es.contains (.text name) = false)
    (hv : (Value.mapping es).property? name = some v) : ev.Gives c (.member m name) (.ok v) := by
  have hentry : Value.namedEntry? (.mapping es) name = none := by
    rwa [Entries.contains, Option.isSome_eq_false_iff, Option.isNone_iff_eq_none] at hn
  have hr := gives_reading hh hm name
  rwa [Value.reading, hentry, hv] at hr

end

/-! ## one map -/

/-- what the expression `m`, which comes to the mapping of these entries, says about them -/
structure DescribesMap (ev : Evaluator) (c : Context) (m : Expr) (es : Value.Entries) : Prop where
  /-- `m[k]` is a value just if `m.ContainsKey(k)`, and otherwise the key is not found -/
  index : ∀ {k key}, KeysDistinct key → ev.Gives c k (.ok key) →
    ∃ found, ev.Gives c (.call (.member m "ContainsKey") [k]) (.ok (.boolean found)) ∧
      ((∃ v, ev.Gives c (.index m k) (.ok v)) ↔ found = true) ∧
      (found = false → ev.Gives c (.index m k) (.error (.keyNotFound key)))
  /-- `m.Keys` and `m.Values` have as many items as `m.Count` says -/
  length : es.Unhidden → ev.Gives c (.member m "Count") (.ok (.count es.length)) ∧
    ∀ part ∈ ["Keys", "Values"], ∀ length ∈ ["Count", "Length"],
      ev.Gives c (.member (.member m part) length) (.ok (.count es.length))
  /-- `m[m.Keys[i]]` is `m.Values[i]`, and `m.Keys.IndexOf(m.Keys[i])` is `i` -/
  position : es.Unhidden → ∀ {p n i} (hi : i < es.length), n.toIndex? = some i →
    ev.Gives c p (.ok (.number n)) →
    ev.Gives c (.index (.member m "Keys") p) (.ok es[i].1) ∧
      ev.Gives c (.index m (.index (.member m "Keys") p)) (.ok es[i].2) ∧
      ev.Gives c (.index (.member m "Values") p) (.ok es[i].2) ∧
      ev.Gives c (.call (.member (.member m "Keys") "IndexOf") [.index (.member m "Keys") p])
        (.ok (.count i))
  /-- `m.ContainsKey(k)` is what `Contains(k)` is of the property `Keys` of the mapping -/
  contains : ∀ {q k keys key}, (Value.mapping es).property? "Keys" = some keys →
    ev.Gives c q (.ok keys) → KeysDistinct key → ev.Gives c k (.ok key) →
    ∃ found, ev.Gives c (.call (.member m "ContainsKey") [k]) (.ok (.boolean found)) ∧
      ev.Gives c (.call (.member q "Contains") [k]) (.ok (.boolean found))
  /-- which `m.Keys` reads, unless an entry has this key -/
  keys : es.contains (.text "Keys") = false → ∃ keys,
    (Value.mapping es).property? "Keys" = some keys ∧ ev.Gives c (.member m "Keys") (.ok keys)
  /-- `m.name` is `m["name"]`, if there is such an entry -/
  member : ∀ {k name}, es.contains (.text name) = true → ev.Gives c k (.ok (.text name)) →
    ∃ v, ev.Gives c (.member m name) (.ok v) ∧ ev.Gives c (.index m k) (.ok v)
  /-- equal keys find the same entry, at the same position -/
  same : ∀ {k k' key key'}, KeysDistinct key → SameAs key key' → ev.Gives c k (.ok key) →
    ev.Gives c k' (.ok key') →
    (∀ v, ev.Gives c (.index m k) (.ok v) ↔ ev.Gives c (.index m k') (.ok v)) ∧
    (∀ r, ev.Gives c (.call (.member m "ContainsKey") [k]) r ↔
      ev.Gives c (.call (.member m "ContainsKey") [k']) r) ∧
    (es.contains (.text "Keys") = false → ∀ r,
      ev.Gives c (.call (.member (.member m "Keys") "IndexOf") [k]) r ↔
        ev.Gives c (.call (.member (.member m "Keys") "IndexOf") [k']) r)

/-- under the standard host, the members and the positions of a mapping are of one map -/
theorem describesMap {ev : Evaluator} {functions : Functions} (hh : ev.host = .standard functions)
    (c : Context) {m : Expr} {es : Value.Entries} (hd : ∀ e ∈ es, KeysDistinct e.1)
    (hu : es.Pairwise fun e f => e.1.same f.1 = false)
    (hm : ev.Gives c m (.ok (.mapping es))) : ev.DescribesMap c m es where
  index _ hk := by
    refine ⟨_, gives_containsKey hh hm hk, ?_, fun hf => ?_⟩
    · rw [Entries.contains, Option.isSome_iff_exists]
      exact exists_congr fun v => gives_entry_iff hm hk
    · have he := gives_entry hm hk
      rwa [Option.isNone_iff_eq_none.1 (Option.isSome_eq_false_iff.1 hf)] at he
  length hn := by
    simp only [Entries.Unhidden, List.forall_mem_cons] at hn
    obtain ⟨hkeys, hvalues, hcount, -⟩ := hn
    have hk := gives_length hh (gives_property hh hm hkeys rfl)
    have hv := gives_length hh (gives_property hh hm hvalues rfl)
    rw [List.length_map] at hk hv
    refine ⟨gives_property hh hm hcount rfl, ?_⟩
    rw [List.forall_mem_cons, List.forall_mem_singleton]
    exact ⟨hk, hv⟩
  position hn p n i hi hp hp' := by
    simp only [Entries.Unhidden, List.forall_mem_cons] at hn
    have hkeys := gives_property hh hm hn.1 rfl
    have hvalues := gives_property hh hm hn.2.1 rfl
    have hkey := gives_item hkeys hp' hp (by rwa [List.length_map])
    have hvalue := gives_item hvalues hp' hp (by rwa [List.length_map])
    rw [List.getElem_map] at hkey hvalue
    refine ⟨hkey, (gives_entry_iff hm hkey).2 (Entries.find?_key hd hu hi), hvalue, ?_⟩
    have hpos := gives_indexOf hh hkeys hkey
    rwa [Entries.itemPosition?_key hd hu hi] at hpos
  contains hp hq hkey hk := by
    cases hp
    refine ⟨_, gives_containsKey hh hm hk, ?_⟩
    rw [← Entries.any_keys hd hkey]
    exact gives_contains hh hq hk
  keys hkeys := ⟨_, rfl, gives_property hh hm hkeys rfl⟩
  member {k name} hname hk := by
    obtain ⟨v, hv⟩ := Option.isSome_iff_exists.1 hname
    refine ⟨v, ?_, (gives_entry_iff hm hk).2 hv⟩
    have hentry : Value.namedEntry? (.mapping es) name = some v := hv
    have hr := gives_reading hh hm name
    rwa [Value.reading, hentry] at hr
  same hkey hs hk hk' := by
    have hfind := Entries.find?_of_same hd hkey hs
    refine ⟨fun v => ?_, fun r => ?_, fun hkeys r => ?_⟩
    · rw [gives_entry_iff hm hk, gives_entry_iff hm hk', hfind]
    · rw [gives_iff (gives_containsKey hh hm hk), gives_iff (gives_containsKey hh hm hk'),
        Entries.contains, Entries.contains, hfind]
    · have hseq := gives_property hh hm hkeys rfl
      rw [gives_iff (gives_indexOf hh hseq hk), gives_iff (gives_indexOf hh hseq hk'),
        itemPosition?_of_same (Entries.keys_distinct hd) hkey hs]

/-- a key that is a mapping, and one that is `1` and is found by `1.0` -/
theorem describesMap_nested :
    let ev : Evaluator := ⟨{}, .standard fun _ => none⟩
    let es : Value.Entries :=
      [(.number .one, .text "a"), (.mapping [(.text "x", .null)], .text "b")]
    let m : Expr := .constant (.mapping es)
    let second : Expr := .index (.member m "Keys") (.constant (.number .one))
    let scaled : Value := .number { negative := false, mantissa := 10, scale := 1 }
    ev.Gives .empty (.index m second) (.ok (.text "b")) ∧
      ev.Gives .empty (.call (.member (.member m "Keys") "IndexOf") [second]) (.ok (.count 1)) ∧
      ev.Gives .empty (.index m (.constant scaled)) (.ok (.text "a")) := by
  intro ev es m second scaled
  have hes : KeysDistinct (.mapping es) := by decide
  have h : ev.DescribesMap .empty m es := describesMap rfl .empty
    (fun e he => (hes.entries.2 e he).1) hes.entries.1 (gives_constant _)
  have hu : es.Unhidden := by
    unfold Entries.Unhidden
    decide
  obtain ⟨-, hv, -, hpos⟩ :=
    h.position hu (n := .one) (i := 1) (by decide) (by decide) (gives_constant _)
  have hone : ev.Gives .empty (.index m (.constant (.number .one))) (.ok (.text "a")) :=
    (gives_entry_iff (gives_constant _) (gives_constant _)).2 rfl
  have hsame : SameAs (.number .one) scaled := ⟨.plain rfl, rfl⟩
  exact ⟨hv, hpos, ((h.same (.plain rfl) hsame (gives_constant _) (gives_constant _)).1 _).1 hone⟩

end Evaluator

end ExprLang
