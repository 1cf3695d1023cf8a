import ExprLang.Proofs.Member.Dispatch

/-!
# What an expression gives from what its parts give

* `EvalM.Comes x r`            the evaluation comes to `r`, whatever was asked before;
* `Evaluator.Gives ev c e r`   so does the evaluation of the expression;
* `Expr.invoke t name args`    the expression `t.name(args)`;
* `Dispatch.answered name r`   the answer `r` of a built-in method, a fault of its arguments as an
                               error.

An error of a part is an error of the whole: what an expression gives is what its parts give, bound
one after the other.  So the result of an expression built from values is computed, one lemma for
each of its nodes: `gives_unary`, `gives_binary`, `gives_read` and `gives_invoke`.  A call of a
built-in method gives the method's answer (`gives_answer`).
-/

namespace ExprLang

namespace EvalM

variable {α β : Type} {x : EvalM α} {r : Except EvalError α}

def Comes (x : EvalM α) (r : Except EvalError α) : Prop := ∀ earlier, (x.run.run earlier).1 = r

theorem comes_ofExcept (r : Except EvalError α) : (ofExcept r).Comes r := fun _ => rfl

theorem Comes.bind_ok {f : α → EvalM β} {a : α} {r : Except EvalError β} (h : x.Comes (.ok a))
    (hf : (f a).Comes r) : (x >>= f).Comes r := by
  intro earlier
  have hr := h earlier
  rw [run_bind]
  rcases hx : x.run.run earlier with ⟨result, between⟩
  rw [hx] at hr
  cases hr
  exact hf between

theorem Comes.bind {f : α → EvalM β} {g : α → Except EvalError β} (h : x.Comes r)
    (hf : ∀ a, (f a).Comes (g a)) : (x >>= f).Comes (r >>= g) := by
  cases r with
  | ok a => exact h.bind_ok (hf a)
  | error e =>
    intro earlier
    have hr := h earlier
    rw [run_bind]
    rcases hx : x.run.run earlier with ⟨result, between⟩
    rw [hx] at hr
    cases hr
    rfl

end EvalM

def Dispatch.answered (name : String) (answer : Except ArgumentFault Value) :
    Except EvalError Value :=
  answer.mapError fun fault => .hostFailed name (.arguments name fault)

theorem Dispatch.answered_eq_ok {name : String} {answer : Except ArgumentFault Value} {v : Value} :
    answered name answer = .ok v ↔ answer = .ok v := by
  constructor
  · intro h
    cases answer with
    | error fault => cases h
    | ok w =>
      cases h
      rfl
  · rintro rfl
    rfl

def Expr.invoke (t : Expr) (name : String) (args : List Expr) : Expr := .call (.member t name) args

namespace Evaluator

def Gives (ev : Evaluator) (c : Context) (e : Expr) (r : Except EvalError Value) : Prop :=
  ∀ earlier, ((ev.eval c e).run.run earlier).1 = r

variable {ev : Evaluator} {c : Context} {t e : Expr} {es : List Expr}
  {rt re : Except EvalError Value} {rs : Except EvalError (List Value)}

theorem gives_iff (h : ev.Gives c e re) {r : Except EvalError Value} : ev.Gives c e r ↔ re = r :=
  ⟨fun h' => (h []).symm.trans (h' []), fun hr => hr ▸ h⟩

theorem comes_nil : (ev.evalAll c []).Comes (.ok []) := by
  rw [evalAll]
  exact EvalM.comes_ofExcept _

theorem comes_cons (he : ev.Gives c e re) (hes : (ev.evalAll c es).Comes rs) :
    (ev.evalAll c (e :: es)).Comes (re >>= fun v => rs >>= fun vs => .ok (v :: vs)) := by
  rw [evalAll]
  exact EvalM.Comes.bind he fun v => hes.bind fun vs => EvalM.comes_ofExcept (.ok (v :: vs))

theorem comes_one {v : Value} (he : ev.Gives c e (.ok v)) : (ev.evalAll c [e]).Comes (.ok [v]) :=
  comes_cons he comes_nil

theorem comes_two {v w : Value} (ht : ev.Gives c t (.ok v)) (he : ev.Gives c e (.ok w)) :
    (ev.evalAll c [t, e]).Comes (.ok [v, w]) :=
  comes_cons ht (comes_one he)

theorem gives_constant (v : Value) : ev.Gives c (.constant v) (.ok v) := by
  intro earlier
  rw [eval]
  rfl

theorem gives_var (name : String) : ev.Gives c (.var name) (.ok (c.value name)) := by
  intro earlier
  rw [eval]
  rfl

theorem gives_unary (he : ev.Gives c e re) (op : UnaryOp) :
    ev.Gives c (.unary op e) (re >>= op.apply) := by
  rw [Gives, eval]
  exact EvalM.Comes.bind he fun v => EvalM.comes_ofExcept (op.apply v)

/-- `&&` and `||` may skip their right operand -/
theorem gives_binary (ht : ev.Gives c t rt) (he : ev.Gives c e re) {op : BinaryOp}
    (hand : op ≠ .and) (hor : op ≠ .or) :
    ev.Gives c (.binary t op e) (rt >>= fun v => re >>= op.apply ev.comparer v) := by
  have hop (v : Value) : ev.operate op v (ev.eval c e) =
      ev.eval c e >>= fun w => EvalM.ofExcept (op.apply ev.comparer v w) := by
    cases op <;> first | rfl | contradiction
  rw [Gives, eval_binary]
  refine EvalM.Comes.bind ht fun v => ?_
  rw [hop]
  exact EvalM.Comes.bind he fun w => EvalM.comes_ofExcept _

theorem gives_concat {x y : String} (ht : ev.Gives c t (.ok (.text x)))
    (he : ev.Gives c e (.ok (.text y))) : ev.Gives c (.binary t .add e) (.ok (.text (x ++ y))) :=
  gives_binary ht he (by decide) (by decide)

theorem gives_index {v key : Value} (ht : ev.Gives c t (.ok v)) (he : ev.Gives c e (.ok key))
    {r : Except EvalError Value} (hr : ∀ earlier, ((ev.host.valueAt v key).run.run earlier).1 = r) :
    ev.Gives c (.index t e) r := by
  rw [Gives, eval_index]
  exact EvalM.Comes.bind_ok ht (EvalM.Comes.bind_ok he hr)

section
variable {a b d : Decimal} (ht : ev.Gives c t (.ok (.number a)))
  (he : ev.Gives c e (.ok (.number b)))
include ht he

theorem gives_plus (h : a.add b = some d) : ev.Gives c (.binary t .add e) (.ok (.number d)) := by
  have hsum : ev.Gives c (.binary t .add e)
      (BinaryOp.orOverflow .add ((a.add b).map .number)) :=
    gives_binary ht he (by decide) (by decide)
  rwa [h] at hsum

theorem gives_minus (h : a.sub b = some d) :
    ev.Gives c (.binary t .subtract e) (.ok (.number d)) := by
  have hdiff : ev.Gives c (.binary t .subtract e)
      (BinaryOp.orOverflow .subtract ((a.sub b).map .number)) :=
    gives_binary ht he (by decide) (by decide)
  rwa [h] at hdiff

end

section
variable {functions : Functions} (hh : ev.host = .standard functions)
include hh

theorem gives_read (ht : ev.Gives c t rt) (name : String) :
    ev.Gives c (.member t name) (rt >>= fun v => v.reading name) := by
  rw [Gives, eval_member, hh]
  refine EvalM.Comes.bind ht fun v earlier => ?_
  rw [Host.run_readMember]

theorem gives_invoke (ht : ev.Gives c t rt) (hes : (ev.evalAll c es).Comes rs) (name : String) :
    ev.Gives c (t.invoke name es) (rt >>= fun v => rs >>= fun vs =>
      (v.dispatch name vs).outcome functions v name vs) := by
  rw [Gives, Expr.invoke, eval_method, hh]
  refine EvalM.Comes.bind ht fun v => hes.bind fun vs earlier => ?_
  rw [Host.run_callMethod]

theorem gives_answer {v : Value} {vs : List Value} {name : String}
    {answer : Except ArgumentFault Value} (ht : ev.Gives c t (.ok v))
    (hes : (ev.evalAll c es).Comes (.ok vs)) (hm : v.callMethod? name vs = some answer) :
    ev.Gives c (t.invoke name es) (Dispatch.answered name answer) := by
  have hd : v.dispatch name vs = .method answer := by
    rw [Value.dispatch, hm]
  have h : ev.Gives c (t.invoke name es) ((v.dispatch name vs).outcome functions v name vs) :=
    gives_invoke hh ht hes name
  rw [hd] at h
  cases answer <;> exact h

theorem gives_answer_iff {v w : Value} {vs : List Value} {name : String}
    {answer : Except ArgumentFault Value} (ht : ev.Gives c t (.ok v))
    (hes : (ev.evalAll c es).Comes (.ok vs)) (hm : v.callMethod? name vs = some answer) :
    ev.Gives c (t.invoke name es) (.ok w) ↔ answer = .ok w :=
  (gives_iff (gives_answer hh ht hes hm)).trans Dispatch.answered_eq_ok

end

end Evaluator

end ExprLang
