import ExprLang.Proofs.Semantics.Folding

/-!
# What an evaluation depends on

Two contexts in which the variables of an expression have the same values give it the same meaning
(`denote_congr`).  An unbound variable has the value null, and a name that is set or removed changes
no other (`Context.value_set_ne`, `Context.value_remove_ne`).  So a context matters only through the
names that `Expr.names` lists: `names_complete`.
-/

namespace ExprLang

namespace Context

theorem value_set_ne (c : Context) {name other : String} (v : Value) (h : name ≠ other) :
    (c.set other v).value name = c.value name := by
  rw [value, value, get?_set_ne c v h]

theorem value_remove_ne (c : Context) {name other : String} (h : name ≠ other) :
    (c.remove other).value name = c.value name := by
  rw [value, value, get?_remove_ne c h]

/-- to bind a name to null is no change of its value if it was unbound -/
theorem value_set_null (c : Context) {other : String} (h : c.get? other = none) (name : String) :
    (c.set other .null).value name = c.value name := by
  by_cases hn : name = other
  · subst hn
    rw [value, value, get?_set_self, h]
    rfl
  · exact value_set_ne c .null hn

end Context

namespace Evaluator

variable (ev : Evaluator) {c d : Context}

theorem denoteAll_congr {es : List Expr} (h : ∀ e ∈ es, ev.denote c e = ev.denote d e) :
    ev.denoteAll c es = ev.denoteAll d es := by
  induction es with
  | nil => rw [denoteAll, denoteAll]
  | cons e es ih =>
    rw [denoteAll, denoteAll, h e (List.mem_cons_self ..),
      ih fun f hf => h f (List.mem_cons_of_mem e hf)]

theorem denoteEntries_congr {ps : List (Expr × Expr)} (before : Value.Entries)
    (h : ∀ p ∈ ps, ev.denote c p.1 = ev.denote d p.1 ∧ ev.denote c p.2 = ev.denote d p.2) :
    ev.denoteEntries c before ps = ev.denoteEntries d before ps := by
  induction ps generalizing before with
  | nil => rw [denoteEntries, denoteEntries]
  | cons p ps ih =>
    obtain ⟨k, v⟩ := p
    obtain ⟨hk, hv⟩ := h (k, v) (List.mem_cons_self ..)
    have ih' (before : Value.Entries) := ih before fun p hp => h p (List.mem_cons_of_mem _ hp)
    rw [denoteEntries, denoteEntries, hk, hv]
    simp only [ih']

theorem denote_congr {e : Expr} (h : ∀ name ∈ e.mentions, c.value name = d.value name) :
    ev.denote c e = ev.denote d e := by
  induction e with
  | constant v => rw [denote, denote]
  | var name => rw [denote, denote, h name (List.mem_singleton_self name)]
  | unary op e ih => rw [denote, denote, ih h]
  | binary l op r ihl ihr =>
    obtain ⟨hl, hr⟩ := List.forall_mem_append.1 h
    rw [denote, denote, ihl hl, ihr hr]
  | conditional q t f ihq iht ihf =>
    obtain ⟨h, hf⟩ := List.forall_mem_append.1 h
    obtain ⟨hq, ht⟩ := List.forall_mem_append.1 h
    rw [denote, denote, ihq hq, iht ht, ihf hf]
  | member t name ih => rw [denote, denote, ih h]
  | index t key iht ihk =>
    obtain ⟨ht, hk⟩ := List.forall_mem_append.1 h
    rw [denote, denote, iht ht, ihk hk]
  | method t name args ih hargs =>
    obtain ⟨ht, ha⟩ := List.forall_mem_append.1 h
    rw [denote, denote, ih ht, ev.denoteAll_congr fun e he => hargs e he fun x hx =>
      ha x (Expr.mem_mentionsOfList.2 ⟨e, he, hx⟩)]
  | call t args hm ih hargs =>
    obtain ⟨ht, ha⟩ := List.forall_mem_append.1 h
    rw [denote.eq_9 _ _ _ _ hm, denote.eq_9 _ _ _ _ hm, ih ht,
      ev.denoteAll_congr fun e he => hargs e he fun x hx =>
        ha x (Expr.mem_mentionsOfList.2 ⟨e, he, hx⟩)]
  | array es hes =>
    rw [denote, denote, ev.denoteAll_congr fun e he => hes e he fun x hx =>
      h x (Expr.mem_mentionsOfList.2 ⟨e, he, hx⟩)]
  | dictionary ps hps =>
    rw [denote, denote, ev.denoteEntries_congr [] fun p hp =>
      ⟨(hps p hp).1 fun x hx => h x (Expr.mem_mentionsOfPairs.2 ⟨p, hp, .inl hx⟩),
        (hps p hp).2 fun x hx => h x (Expr.mem_mentionsOfPairs.2 ⟨p, hp, .inr hx⟩)⟩]

theorem eval_congr {e : Expr} (h : ∀ name ∈ e.names, c.value name = d.value name) :
    ev.eval c e = ev.eval d e := by
  rw [eval_eq_denote, eval_eq_denote]
  exact ev.denote_congr fun name hn => h name (Expr.mem_names.2 hn)

theorem names_complete (ev : Evaluator) (e : Expr) :
    (∀ c d : Context, (∀ name ∈ e.names, c.value name = d.value name) →
      ev.eval c e = ev.eval d e) ∧
    (∀ (c : Context) (name : String), name ∉ e.names →
      (∀ v, ev.eval (c.set name v) e = ev.eval c e) ∧
        ev.eval (c.remove name) e = ev.eval c e) ∧
    ∀ (c : Context) (name : String), c.get? name = none →
      ev.eval (c.set name .null) e = ev.eval c e := by
  refine ⟨fun c d h => ev.eval_congr h, fun c name hn => ?_, fun c name hn => ?_⟩
  · have ne {other : String} (ho : other ∈ e.names) : other ≠ name := fun h => hn (h ▸ ho)
    exact ⟨fun v => ev.eval_congr fun other ho => c.value_set_ne v (ne ho),
      ev.eval_congr fun other ho => c.value_remove_ne (ne ho)⟩
  · exact ev.eval_congr fun other _ => c.value_set_null hn other

/-- `a.Contains(b)` does not see `z`, nor whether `b` is bound to null -/
theorem names_complete_contains :
    let ev : Evaluator := ⟨⟨{}, .identity⟩, .standard fun _ => none⟩
    let e : Expr := .call (.member (.var "a") "Contains") [.var "b"]
    let c := Context.ofList [("a", .text "x"), ("b", .null), ("z", .boolean true)]
    let d := Context.ofList [("a", .text "x")]
    (∀ name ∈ e.names, c.value name = d.value name) ∧ ev.eval c e = ev.eval d e ∧
      "z" ∉ e.names ∧ ev.eval (c.remove "z") e = ev.eval c e ∧
      d.get? "b" = none ∧ ev.eval (d.set "b" .null) e = ev.eval d e := by
  intro ev e c d
  have hn : e.names = ["a", "b"] := by decide
  have hcd : ∀ name ∈ e.names, c.value name = d.value name := by
    rw [hn]
    intro name h
    rcases List.mem_cons.1 h with rfl | h
    · rfl
    · rw [List.mem_singleton.1 h]
      rfl
  have hz : "z" ∉ e.names := by
    rw [hn]
    decide
  obtain ⟨h1, h2, h3⟩ := names_complete ev e
  exact ⟨hcd, h1 c d hcd, hz, (h2 c "z" hz).2, rfl, h3 d "b" rfl⟩

end Evaluator

end ExprLang
