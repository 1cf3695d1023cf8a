import ExprLang.Eval.Access
import ExprLang.Proofs.Member

/-!
# What evaluations keep

* `EvalM.Ensures start P Q x`   if the requests since `start` hold `P`, those that the evaluation `x`
                                makes hold it as well, and its value, if any, satisfies `Q`.

An evaluation ensures what its last step ensures from what the steps before ensure: `Ensures.bind`.
`Ensures.ask` is the one step that makes a request.
-/

namespace ExprLang

namespace EvalM

variable {α β : Type}

theorem run_bind (x : EvalM α) (f : α → EvalM β) (earlier : List Request) :
    (x >>= f).run.run earlier = match x.run.run earlier with
      | (.ok a, requests) => (f a).run.run requests
      | (.error e, requests) => (.error e, requests) := by
  show (match x.run.run earlier with
      | (r, requests) => (ExceptT.bindCont f r).run requests) = _
  rcases x.run.run earlier with ⟨_ | _, _⟩ <;> rfl

def Ensures (start : List Request) (P : Value → Prop) (Q : α → Prop) (x : EvalM α) : Prop :=
  ∀ earlier, Request.Since P start earlier →
    Request.Since P start (x.run.run earlier).2 ∧ Yields Q (x.run.run earlier).1

namespace Ensures

variable {start : List Request} {P : Value → Prop} {Q : α → Prop} {R : β → Prop} {x : EvalM α}
  {f : α → EvalM β}

theorem ofExcept {r : Except EvalError α} (h : Yields Q r) : Ensures start P Q (.ofExcept r) :=
  fun _ he => ⟨he, h⟩

theorem pure {a : α} (h : Q a) : Ensures start P Q (Pure.pure a : EvalM α) := ofExcept (.ok h)

theorem throw (e : EvalError) : Ensures start P Q (MonadExcept.throw e : EvalM α) :=
  ofExcept (.error e)

theorem bind (h : Ensures start P Q x) (hf : ∀ a, Q a → Ensures start P R (f a)) :
    Ensures start P R (x >>= f) := by
  intro earlier he
  obtain ⟨hr, hq⟩ := h earlier he
  rw [run_bind]
  rcases hx : x.run.run earlier with ⟨e | a, requests⟩
  · rw [hx] at hr
    exact ⟨hr, .error e⟩
  · rw [hx] at hr hq
    exact hf a (hq a rfl) requests hr

/-- from a host whose answers satisfy `S` -/
theorem ask {S : Value → Prop} {h : Host} (request : Request) (hr : request.Holds P)
    (hh : ∀ earlier, Request.Since P start earlier → Yields S (h.answer earlier request)) :
    Ensures start P (Yields S) (h.ask request) :=
  fun earlier he => ⟨he.cons hr, .ok (hh earlier he)⟩

end Ensures

end EvalM

end ExprLang
