import ExprLang.Proofs.Expr
import ExprLang.Proofs.Semantics

/-!
# Folding along a spine

The evaluator takes a run apart into its innermost expression and the links, and folds the links.
An outermost link is the last one of its spine (`operatorSpine_append`, `accessSpine_append`), and it
is folded after all others (`foldOperators_append`, `foldLinks_append`).  So the fold evaluates what
is left of the link and then takes one step: `eval_binary`, `eval_member`, `eval_index`,
`eval_method`, `eval_call`.  These are the equations of `Evaluator.denote`, which `eval_eq_denote`
concludes.
-/

namespace ExprLang

/-! ## spines -/

namespace Expr

theorem operatorSpine_append (e : Expr) (xs ys : List (BinaryOp × Expr)) :
    e.operatorSpine (xs ++ ys) = ((e.operatorSpine xs).1, (e.operatorSpine xs).2 ++ ys) := by
  fun_induction operatorSpine e xs with
  | case1 l op r xs ih => rw [← ih, operatorSpine, List.cons_append]
  | case2 e xs h => rw [operatorSpine.eq_2 _ _ h]

theorem accessSpine_append (e : Expr) (xs ys : List Link) :
    e.accessSpine (xs ++ ys) = ((e.accessSpine xs).1, (e.accessSpine xs).2 ++ ys) := by
  fun_induction accessSpine e xs with
  | case1 t name xs ih => rw [← ih, accessSpine, List.cons_append]
  | case2 t key xs ih => rw [← ih, accessSpine, List.cons_append]
  | case3 t name args xs ih => rw [← ih, accessSpine, List.cons_append]
  | case4 t args xs h ih => rw [← ih, accessSpine.eq_4 _ _ _ h, List.cons_append]
  | case5 e xs h1 h2 h3 h4 => rw [accessSpine.eq_5 _ _ h1 h2 h3 h4]

end Expr

namespace Evaluator

variable (ev : Evaluator) (c : Context)

/-! ## operators -/

theorem foldOperators_append (v : Value) (xs ys : List (BinaryOp × Expr)) :
    ev.foldOperators c v (xs ++ ys) =
      ev.foldOperators c v xs >>= fun w => ev.foldOperators c w ys := by
  induction xs generalizing v with
  | nil => rw [List.nil_append, foldOperators.eq_1, pure_bind]
  | cons x xs ih =>
    obtain ⟨op, r⟩ := x
    rw [List.cons_append, foldOperators, foldOperators]
    split
    · exact ih _
    · simp only [ih, bind_assoc]

theorem foldOperators_single (v : Value) (op : BinaryOp) (r : Expr) :
    ev.foldOperators c v [(op, r)] = ev.operate op v (ev.eval c r) := by
  have hb {op : BinaryOp} {b : Bool} (h : op.decided? v = some b) :
      ev.foldOperators c v [(op, r)] = pure (.boolean b) := by
    rw [foldOperators, h]
    simp only [foldOperators]
  have hn {op : BinaryOp} (h : op.decided? v = none) :
      ev.foldOperators c v [(op, r)] =
        ev.eval c r >>= fun w => EvalM.ofExcept (ev.combine op v w) := by
    rw [foldOperators, h]
    simp only [foldOperators, bind_pure]
  cases op with
  | and =>
    rw [operate]
    split
    · next ht =>
      rw [hn (by rw [BinaryOp.decided?, if_pos ht])]
      rfl
    · next hf => exact hb (by rw [BinaryOp.decided?, if_neg hf])
  | or =>
    rw [operate]
    split
    · next ht => exact hb (by rw [BinaryOp.decided?, if_pos ht])
    · next hf =>
      rw [hn (by rw [BinaryOp.decided?, if_neg hf])]
      rfl
  | _ => exact hn rfl

/-- every expression is the fold of its own spine, which may be empty -/
theorem eval_operatorSpine (e : Expr) :
    ev.eval c e = ev.eval c (e.operatorSpine []).1 >>= fun first =>
      ev.foldOperators c first (e.operatorSpine []).2 := by
  cases e with
  | binary l op r =>
    rw [eval]
    rfl
  | _ => simp [Expr.operatorSpine, foldOperators]

theorem eval_binary (l : Expr) (op : BinaryOp) (r : Expr) :
    ev.eval c (.binary l op r) =
      ev.eval c l >>= fun v => ev.operate op v (ev.eval c r) := by
  rw [eval, ← List.nil_append [(op, r)], Expr.operatorSpine_append, ev.eval_operatorSpine c l]
  simp only [foldOperators_append, foldOperators_single, bind_assoc]

/-! ## members, positions and calls -/

theorem foldLinks_append (v : Value) (xs ys : List Link) :
    ev.foldLinks c v (xs ++ ys) =
      ev.foldLinks c v xs >>= fun w => ev.foldLinks c w ys := by
  induction xs generalizing v with
  | nil => rw [List.nil_append, foldLinks.eq_1, pure_bind]
  | cons x xs ih =>
    cases x with
    | member name => simp only [List.cons_append, foldLinks, ih, bind_assoc]
    | index key => simp only [List.cons_append, foldLinks, ih, bind_assoc]
    | method name args => simp only [List.cons_append, foldLinks, ih, bind_assoc]
    | call name args => simp only [List.cons_append, foldLinks, ih, bind_assoc]

theorem eval_accessSpine (e : Expr) :
    ev.eval c e = ev.eval c (e.accessSpine []).1 >>= fun first =>
      ev.foldLinks c first (e.accessSpine []).2 := by
  cases e with
  | member t name => rw [eval]
  | index t key => rw [eval]
  | call t args => rw [eval]
  | _ => simp [Expr.accessSpine, foldLinks]

/-- the last step of a spine is taken behind all that is in front of it -/
theorem eval_link {e t : Expr} {l : Link} (h : e.accessSpine [] = t.accessSpine [l]) :
    ev.eval c e = ev.eval c t >>= fun v => ev.foldLinks c v [l] := by
  rw [ev.eval_accessSpine c e, h, ← List.nil_append [l], Expr.accessSpine_append,
    ev.eval_accessSpine c t]
  simp only [foldLinks_append, bind_assoc, List.nil_append]

theorem eval_member (t : Expr) (name : String) :
    ev.eval c (.member t name) = ev.eval c t >>= fun v => ev.host.readMember v name := by
  rw [ev.eval_link c (t := t) (l := .member name) rfl]
  simp only [foldLinks, bind_pure]

theorem eval_index (t key : Expr) :
    ev.eval c (.index t key) =
      ev.eval c t >>= fun v => ev.eval c key >>= fun k => ev.host.valueAt v k := by
  rw [ev.eval_link c (t := t) (l := .index key) rfl]
  simp only [foldLinks, bind_pure]

theorem eval_method (t : Expr) (name : String) (args : List Expr) :
    ev.eval c (.call (.member t name) args) =
      ev.eval c t >>= fun v => ev.evalAll c args >>= fun vs => ev.host.callMethod v name vs := by
  rw [ev.eval_link c (t := t) (l := .method name args) rfl]
  simp only [foldLinks, bind_pure]

theorem eval_call {t : Expr} (h : ∀ u name, t ≠ .member u name) (args : List Expr) :
    ev.eval c (.call t args) =
      ev.eval c t >>= fun v => ev.evalAll c args >>= fun vs =>
        ev.host.callValue v vs (t.varName?.getD v.typeName) := by
  rw [ev.eval_link c (t := t) (l := .call t.varName? args) (Expr.accessSpine.eq_4 _ _ _ h)]
  simp only [foldLinks, bind_pure]

/-! ## the fold is the meaning -/

theorem evalAll_eq_denoteAll {es : List Expr} (h : ∀ e ∈ es, ev.eval c e = ev.denote c e) :
    ev.evalAll c es = ev.denoteAll c es := by
  induction es with
  | nil => rw [evalAll, denoteAll]
  | cons e es ih =>
    rw [evalAll, denoteAll, h e (List.mem_cons_self ..),
      ih fun f hf => h f (List.mem_cons_of_mem e hf)]

theorem evalEntries_eq_denoteEntries {ps : List (Expr × Expr)} (before : Value.Entries)
    (h : ∀ p ∈ ps, ev.eval c p.1 = ev.denote c p.1 ∧ ev.eval c p.2 = ev.denote c p.2) :
    ev.evalEntries c before ps = ev.denoteEntries c before ps := by
  induction ps generalizing before with
  | nil => rw [evalEntries, denoteEntries]
  | cons p ps ih =>
    obtain ⟨k, v⟩ := p
    obtain ⟨hk, hv⟩ := h (k, v) (List.mem_cons_self ..)
    have ih' (before : Value.Entries) := ih before fun p hp => h p (List.mem_cons_of_mem _ hp)
    rw [evalEntries, denoteEntries, hk, hv]
    simp only [ih']

theorem eval_eq_denote (e : Expr) : ev.eval c e = ev.denote c e := by
  induction e with
  | constant v => rw [eval, denote]
  | var name => rw [eval, denote]
  | unary op e ih => rw [eval, denote, ih]
  | binary l op r ihl ihr => rw [eval_binary, denote, ihl, ihr]
  | conditional q t f ihq iht ihf => rw [eval, denote, ihq, iht, ihf]
  | member t name ih => rw [eval_member, denote, ih]
  | index t key iht ihk => rw [eval_index, denote, iht, ihk]
  | method t name args ih hargs =>
    rw [eval_method, denote, ih, ev.evalAll_eq_denoteAll c hargs]
  | call t args h ih hargs =>
    rw [ev.eval_call c h, denote.eq_9 _ _ _ _ h, ih, ev.evalAll_eq_denoteAll c hargs]
  | array es h => rw [eval, denote, ev.evalAll_eq_denoteAll c h]
  | dictionary ps h => rw [eval, denote, ev.evalEntries_eq_denoteEntries c [] h]

/-- on two variables, `&&` and `||` are like any other operator: reading a variable shows nothing -/
theorem operate_pure (op : BinaryOp) (a b : Value) :
    ev.operate op a (pure b) = EvalM.ofExcept (op.apply ev.comparer a b) := by
  cases op with
  | and =>
    cases h : a.isTruthy <;> simp [operate, BinaryOp.apply, EvalM.ofExcept, h] <;> rfl
  | or =>
    cases h : a.isTruthy <;> simp [operate, BinaryOp.apply, EvalM.ofExcept, h] <;> rfl
  | _ => simp only [operate, pure_bind]

theorem eval_recursive (ev : Evaluator) (c : Context) :
    (∀ e, ev.eval c e = ev.denote c e) ∧
      ∀ x op y, ev.eval c (.binary (.var x) op (.var y)) =
        EvalM.ofExcept (op.apply ev.comparer (c.value x) (c.value y)) := by
  refine ⟨ev.eval_eq_denote c, fun x op y => ?_⟩
  rw [eval_binary, eval, eval, pure_bind, operate_pure]

end Evaluator

end ExprLang
