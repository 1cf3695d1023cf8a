import ExprLang.Proofs.Semantics.Folding

/-!
# How deep evaluations nest

An evaluation of an expression calls for the evaluation of others.  It walks a whole spine itself, so
that the links of a run do not nest.

* `Expr.evalDepth e`       how many evaluations are under way at once, at most, for the value of `e`;
* `Expr.operandDepth e`    the same for the leftmost operand and the right operands of a run that `e` is;
* `Expr.targetDepth e`     the same for the base, the keys and the arguments;
* `Evaluator.evalBy`       one evaluation, with a function that stands for those it calls for;
* `Evaluator.evalWithin`   evaluation with a limit to the nesting, and something else beyond it.

A link more is as deep as its own parts (`evalDepth_binary`, `evalDepth_member`, `evalDepth_index`,
`evalDepth_call`).  Within the depth of an expression the limit is not met: `evalWithin_eq`.
-/

namespace ExprLang

namespace Expr

mutual

def evalDepth (e : Expr) : Nat :=
  match e with
  | .constant _ | .var _ => 1
  | .unary _ operand => operand.evalDepth + 1
  | .binary l op r =>
    have := l.operatorSpine_lt op r
    have := Expr.binary.sizeOf_spec l op r
    max (evalDepth (l.operatorSpine [(op, r)]).1) (depthOfOperands (l.operatorSpine [(op, r)]).2) + 1
  | .conditional q t f => max (max q.evalDepth t.evalDepth) f.evalDepth + 1
  | .member t name =>
    have := Expr.accessSpine_lt (e := .member t name) rfl
    have := Expr.member.sizeOf_spec t name
    max (evalDepth ((Expr.member t name).accessSpine []).1)
      (depthOfLinks ((Expr.member t name).accessSpine []).2) + 1
  | .index t key =>
    have := Expr.accessSpine_lt (e := .index t key) rfl
    have := Expr.index.sizeOf_spec t key
    max (evalDepth ((Expr.index t key).accessSpine []).1)
      (depthOfLinks ((Expr.index t key).accessSpine []).2) + 1
  | .call t args =>
    have := Expr.accessSpine_lt (e := .call t args) rfl
    have := Expr.call.sizeOf_spec t args
    max (evalDepth ((Expr.call t args).accessSpine []).1)
      (depthOfLinks ((Expr.call t args).accessSpine []).2) + 1
  | .array es => evalDepthOfList es + 1
  | .dictionary ps => evalDepthOfPairs ps + 1
termination_by sizeOf e

/-- the deepest right operand -/
def depthOfOperands (links : List (BinaryOp × Expr)) : Nat :=
  match links with
  | [] => 0
  | (_, right) :: rest => max right.evalDepth (depthOfOperands rest)
termination_by operandsWeight links
decreasing_by all_goals simp only [operandsWeight]; omega

/-- the deepest key or argument -/
def depthOfLinks (links : List Link) : Nat :=
  match links with
  | [] => 0
  | .member _ :: rest => depthOfLinks rest
  | .index key :: rest => max key.evalDepth (depthOfLinks rest)
  | .method _ args :: rest | .call _ args :: rest => max (evalDepthOfList args) (depthOfLinks rest)
termination_by linksWeight links
decreasing_by all_goals simp only [linksWeight, Link.weight]; omega

/-- the deepest expression of a list, zero of none -/
def evalDepthOfList (es : List Expr) : Nat :=
  match es with
  | [] => 0
  | e :: rest => max e.evalDepth (evalDepthOfList rest)
termination_by sizeOf es

/-- the deepest expression of a list of pairs, zero of none -/
def evalDepthOfPairs (ps : List (Expr × Expr)) : Nat :=
  match ps with
  | [] => 0
  | (k, v) :: rest => max (max k.evalDepth v.evalDepth) (evalDepthOfPairs rest)
termination_by sizeOf ps

end

def operandDepth (e : Expr) : Nat :=
  max (e.operatorSpine []).1.evalDepth (depthOfOperands (e.operatorSpine []).2)

def targetDepth (e : Expr) : Nat :=
  max (e.accessSpine []).1.evalDepth (depthOfLinks (e.accessSpine []).2)

theorem evalDepth_pos (e : Expr) : 0 < e.evalDepth := by
  cases e <;> rw [evalDepth] <;> exact Nat.succ_pos _

/-! ## one link more -/

theorem depthOfOperands_append (xs ys : List (BinaryOp × Expr)) :
    depthOfOperands (xs ++ ys) = max (depthOfOperands xs) (depthOfOperands ys) := by
  induction xs with
  | nil => rw [List.nil_append, depthOfOperands.eq_1, Nat.zero_max]
  | cons x xs ih =>
    obtain ⟨op, r⟩ := x
    rw [List.cons_append, depthOfOperands, depthOfOperands, ih, Nat.max_assoc]

theorem depthOfLinks_append (xs ys : List Link) :
    depthOfLinks (xs ++ ys) = max (depthOfLinks xs) (depthOfLinks ys) := by
  induction xs with
  | nil => rw [List.nil_append, depthOfLinks.eq_1, Nat.zero_max]
  | cons x xs ih =>
    cases x with
    | member name => rw [List.cons_append, depthOfLinks, depthOfLinks, ih]
    | index key => rw [List.cons_append, depthOfLinks, depthOfLinks, ih, Nat.max_assoc]
    | method name args => rw [List.cons_append, depthOfLinks, depthOfLinks, ih, Nat.max_assoc]
    | call name args => rw [List.cons_append, depthOfLinks, depthOfLinks, ih, Nat.max_assoc]

theorem operandDepth_binary (l : Expr) (op : BinaryOp) (r : Expr) :
    (Expr.binary l op r).operandDepth = max l.operandDepth r.evalDepth := by
  show max (l.operatorSpine ([] ++ [(op, r)])).1.evalDepth
    (depthOfOperands (l.operatorSpine ([] ++ [(op, r)])).2) = _
  rw [operatorSpine_append, depthOfOperands_append, depthOfOperands, depthOfOperands, Nat.max_zero,
    ← Nat.max_assoc]
  rfl

theorem evalDepth_binary (l : Expr) (op : BinaryOp) (r : Expr) :
    (Expr.binary l op r).evalDepth = max l.operandDepth r.evalDepth + 1 := by
  rw [← operandDepth_binary l op r, evalDepth]
  rfl

theorem operandDepth_le (e : Expr) : e.operandDepth ≤ e.evalDepth := by
  cases e with
  | binary l op r =>
    rw [operandDepth_binary, evalDepth_binary]
    exact Nat.le_succ _
  | _ => simp [operandDepth, operatorSpine, depthOfOperands]

/-- the spine of a link that `l` adds to the spine of `t` -/
theorem targetDepth_link {e t : Expr} {l : Link} (h : e.accessSpine [] = t.accessSpine [l]) :
    e.targetDepth = max t.targetDepth (depthOfLinks [l]) := by
  rw [targetDepth, h, ← List.nil_append [l], accessSpine_append, depthOfLinks_append,
    ← Nat.max_assoc]
  rfl

theorem targetDepth_member (t : Expr) (name : String) :
    (Expr.member t name).targetDepth = t.targetDepth := by
  rw [targetDepth_link (t := t) (l := .member name) rfl, depthOfLinks, depthOfLinks, Nat.max_zero]

theorem targetDepth_index (t key : Expr) :
    (Expr.index t key).targetDepth = max t.targetDepth key.evalDepth := by
  rw [targetDepth_link (t := t) (l := .index key) rfl, depthOfLinks, depthOfLinks, Nat.max_zero]

theorem targetDepth_call (t : Expr) (args : List Expr) :
    (Expr.call t args).targetDepth = max t.targetDepth (evalDepthOfList args) := by
  by_cases hm : ∃ u name, t = .member u name
  · obtain ⟨u, name, rfl⟩ := hm
    rw [targetDepth_link (t := u) (l := .method name args) rfl, targetDepth_member, depthOfLinks,
      depthOfLinks, Nat.max_zero]
  · have h : (Expr.call t args).accessSpine [] = t.accessSpine [.call t.varName? args] :=
      accessSpine.eq_4 _ _ _ fun u name hu => hm ⟨u, name, hu⟩
    rw [targetDepth_link h, depthOfLinks, depthOfLinks, Nat.max_zero]

theorem evalDepth_access {e : Expr} (h : e.isAccess = true) : e.evalDepth = e.targetDepth + 1 := by
  match e, h with
  | .member .., _ | .index .., _ | .call .., _ => rw [evalDepth, targetDepth]

theorem targetDepth_le (e : Expr) : e.targetDepth ≤ e.evalDepth := by
  cases h : e.isAccess with
  | true =>
    rw [evalDepth_access h]
    exact Nat.le_succ _
  | false =>
    have hs : e.accessSpine [] = (e, []) := by
      cases e <;> first | rfl | cases h
    exact Nat.le_of_eq (by rw [targetDepth, hs, depthOfLinks, Nat.max_zero])

end Expr

/-! ## evaluation with a limit -/

namespace Evaluator

section
-- the parts of an evaluation, with `nested` where the evaluator calls itself
variable (ev : Evaluator) (nested : Expr → EvalM Value) (c : Context)

def foldOperatorsBy (left : Value) : List (BinaryOp × Expr) → EvalM Value
  | [] => return left
  | (op, right) :: rest =>
    match op.decided? left with
    | some b => foldOperatorsBy (.boolean b) rest
    | none => do
      let r ← nested right
      let v ← EvalM.ofExcept (ev.combine op left r)
      foldOperatorsBy v rest

def evalAllBy : List Expr → EvalM (List Value)
  | [] => return []
  | e :: rest => do
    let v ← nested e
    let vs ← evalAllBy rest
    return v :: vs

def foldLinksBy (target : Value) : List Link → EvalM Value
  | [] => return target
  | .member name :: rest => do
    let v ← ev.host.readMember target name
    foldLinksBy v rest
  | .index key :: rest => do
    let k ← nested key
    let v ← ev.host.valueAt target k
    foldLinksBy v rest
  | .method name args :: rest => do
    let vs ← evalAllBy nested args
    let v ← ev.host.callMethod target name vs
    foldLinksBy v rest
  | .call name args :: rest => do
    let vs ← evalAllBy nested args
    let v ← ev.host.callValue target vs (name.getD target.typeName)
    foldLinksBy v rest

def evalEntriesBy (before : Value.Entries) : List (Expr × Expr) → EvalM Value.Entries
  | [] => return before
  | (key, value) :: rest => do
    let k ← nested key
    let v ← nested value
    if before.contains k then throw (.duplicateKey k)
    evalEntriesBy (before ++ [(k, v)]) rest

def evalBy (e : Expr) : EvalM Value :=
  match e with
  | .constant v => return v
  | .var name => return c.value name
  | .unary op operand => do
    let v ← nested operand
    EvalM.ofExcept (op.apply v)
  | .binary l op r => do
    let first ← nested (l.operatorSpine [(op, r)]).1
    ev.foldOperatorsBy nested first (l.operatorSpine [(op, r)]).2
  | .conditional condition thenBranch elseBranch => do
    let v ← nested condition
    if v.isTruthy then nested thenBranch else nested elseBranch
  | .member .. | .index .. | .call .. => do
    let first ← nested (e.accessSpine []).1
    ev.foldLinksBy nested first (e.accessSpine []).2
  | .array elements => do
    let items ← evalAllBy nested elements
    return .sequence items
  | .dictionary pairs => do
    let entries ← evalEntriesBy nested [] pairs
    return .mapping entries

end

def evalWithin (ev : Evaluator) (c : Context) (beyond : EvalM Value) : Nat → Expr → EvalM Value
  | 0, _ => beyond
  | limit + 1, e => ev.evalBy (ev.evalWithin c beyond limit) c e

section
variable {ev : Evaluator} {c : Context} {nested : Expr → EvalM Value} {limit : Nat}
  (h : ∀ e : Expr, e.evalDepth ≤ limit → nested e = ev.eval c e)
include h

theorem foldOperatorsBy_eq (left : Value) {links : List (BinaryOp × Expr)}
    (hl : Expr.depthOfOperands links ≤ limit) :
    ev.foldOperatorsBy nested left links = ev.foldOperators c left links := by
  induction links generalizing left with
  | nil => rw [foldOperatorsBy, foldOperators]
  | cons x rest ih =>
    obtain ⟨op, r⟩ := x
    rw [Expr.depthOfOperands, Nat.max_le] at hl
    have ih' (v : Value) := ih v hl.2
    rw [foldOperatorsBy, foldOperators, h r hl.1]
    cases op.decided? left with
    | some b => exact ih' _
    | none => simp only [ih']

theorem evalAllBy_eq {es : List Expr} (hl : Expr.evalDepthOfList es ≤ limit) :
    evalAllBy nested es = ev.evalAll c es := by
  induction es with
  | nil => rw [evalAllBy, evalAll]
  | cons e es ih =>
    rw [Expr.evalDepthOfList, Nat.max_le] at hl
    rw [evalAllBy, evalAll, h e hl.1, ih hl.2]

theorem foldLinksBy_eq (target : Value) {links : List Link}
    (hl : Expr.depthOfLinks links ≤ limit) :
    ev.foldLinksBy nested target links = ev.foldLinks c target links := by
  induction links generalizing target with
  | nil => rw [foldLinksBy, foldLinks]
  | cons x rest ih =>
    cases x with
    | member name =>
      rw [Expr.depthOfLinks] at hl
      rw [foldLinksBy, foldLinks]
      simp only [ih _ hl]
    | index key =>
      rw [Expr.depthOfLinks, Nat.max_le] at hl
      rw [foldLinksBy, foldLinks, h key hl.1]
      simp only [ih _ hl.2]
    | method name args =>
      rw [Expr.depthOfLinks, Nat.max_le] at hl
      rw [foldLinksBy, foldLinks, evalAllBy_eq h hl.1]
      simp only [ih _ hl.2]
    | call name args =>
      rw [Expr.depthOfLinks, Nat.max_le] at hl
      rw [foldLinksBy, foldLinks, evalAllBy_eq h hl.1]
      simp only [ih _ hl.2]

theorem evalEntriesBy_eq (before : Value.Entries) {ps : List (Expr × Expr)}
    (hl : Expr.evalDepthOfPairs ps ≤ limit) :
    evalEntriesBy nested before ps = ev.evalEntries c before ps := by
  induction ps generalizing before with
  | nil => rw [evalEntriesBy, evalEntries]
  | cons p ps ih =>
    obtain ⟨k, v⟩ := p
    rw [Expr.evalDepthOfPairs, Nat.max_le, Nat.max_le] at hl
    have ih' (before : Value.Entries) := ih before hl.2
    rw [evalEntriesBy, evalEntries, h k hl.1.1, h v hl.1.2]
    simp only [ih']

/-- an evaluation is one step, in which the evaluations it calls for are less deep -/
theorem evalBy_eq {e : Expr} (he : e.evalDepth ≤ limit + 1) :
    ev.evalBy nested c e = ev.eval c e := by
  have access (ha : e.isAccess = true) :
      (nested (e.accessSpine []).1 >>= fun first =>
        ev.foldLinksBy nested first (e.accessSpine []).2) =
      (ev.eval c (e.accessSpine []).1 >>= fun first =>
        ev.foldLinks c first (e.accessSpine []).2) := by
    rw [Expr.evalDepth_access ha, Expr.targetDepth, Nat.succ_le_succ_iff, Nat.max_le] at he
    rw [h _ he.1]
    simp only [foldLinksBy_eq h _ he.2]
  cases e with
  | constant v => rw [evalBy, eval]
  | var name => rw [evalBy, eval]
  | unary op e =>
    rw [Expr.evalDepth, Nat.succ_le_succ_iff] at he
    rw [evalBy, eval, h e he]
  | binary l op r =>
    rw [Expr.evalDepth, Nat.succ_le_succ_iff, Nat.max_le] at he
    rw [evalBy, eval, h _ he.1]
    simp only [foldOperatorsBy_eq h _ he.2]
  | conditional q t f =>
    rw [Expr.evalDepth, Nat.succ_le_succ_iff, Nat.max_le, Nat.max_le] at he
    rw [evalBy, eval, h q he.1.1, h t he.1.2, h f he.2]
  | member t name =>
    rw [evalBy, eval]
    exact access rfl
  | index t key =>
    rw [evalBy, eval]
    exact access rfl
  | call t args =>
    rw [evalBy, eval]
    exact access rfl
  | array es =>
    rw [Expr.evalDepth, Nat.succ_le_succ_iff] at he
    rw [evalBy, eval, evalAllBy_eq h he]
  | dictionary ps =>
    rw [Expr.evalDepth, Nat.succ_le_succ_iff] at he
    rw [evalBy, eval, evalEntriesBy_eq h [] he]

end

theorem evalWithin_eq (ev : Evaluator) (c : Context) (beyond : EvalM Value) {limit : Nat}
    {e : Expr} (h : e.evalDepth ≤ limit) : ev.evalWithin c beyond limit e = ev.eval c e := by
  induction limit generalizing e with
  | zero => exact absurd e.evalDepth_pos (by omega)
  | succ limit ih =>
    rw [evalWithin]
    exact evalBy_eq (fun e he => ih he) h

end Evaluator

end ExprLang
