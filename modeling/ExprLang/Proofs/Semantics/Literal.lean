import ExprLang.Eval
import ExprLang.Proofs.Semantics.Invariant

/-!
# Dictionary literals

* `Value.Entries.KeysDiffer es`   no entry has a key that is structurally equal to one before;
* `Evaluator.evalPair`            the values of a key and of what stands behind it, in this order;
* `Evaluator.evalPairs`           the values of pairs;
* `Evaluator.EntriesRun`          how the evaluation of the pairs of a literal ends.

`evalEntries_run` is by induction on the pairs that are left; `evalPairs_snoc` says what the values
of the pairs that are done, and the requests for them, become with the next one.
-/

namespace ExprLang

def Value.Entries.KeysDiffer (es : Value.Entries) : Prop :=
  es.Pairwise fun e f => f.1.same e.1 = false

namespace Value.Entries

theorem contains_iff {es : Entries} {key : Value} :
    es.contains key = true ↔ ∃ e ∈ es, key.same e.1 = true := by
  rw [contains, find?, Option.isSome_map, List.find?_isSome]

theorem not_same_of_contains {es : Entries} {key : Value} (h : es.contains key = false)
    {e : Value × Value} (he : e ∈ es) : key.same e.1 = false := by
  refine Bool.eq_false_iff.2 fun hs => ?_
  rw [contains_iff.2 ⟨e, he, hs⟩] at h
  cases h

theorem KeysDiffer.snoc {es : Entries} {k : Value} (v : Value) (h : es.KeysDiffer)
    (hk : es.contains k = false) : KeysDiffer (es ++ [(k, v)]) := by
  refine List.pairwise_append.2 ⟨h, List.pairwise_singleton .., fun e he f hf => ?_⟩
  rw [List.mem_singleton.1 hf]
  exact not_same_of_contains hk he

end Value.Entries

namespace Evaluator

def evalPair (ev : Evaluator) (c : Context) (p : Expr × Expr) : EvalM (Value × Value) := do
  let k ← ev.eval c p.1
  let v ← ev.eval c p.2
  return (k, v)

/-- the values of pairs, from left to right, whatever their keys are -/
def evalPairs (ev : Evaluator) (c : Context) (ps : List (Expr × Expr)) : EvalM Value.Entries :=
  ps.mapM (ev.evalPair c)

inductive EntriesRun (ev : Evaluator) (c : Context) (ps : List (Expr × Expr))
    (earlier : List Request) : Except EvalError Value.Entries × List Request → Prop where
  /-- all pairs have values, and their keys differ -/
  | complete {es : Value.Entries} {requests : List Request} :
      (ev.evalPairs c ps).run.run earlier = (.ok es, requests) → es.KeysDiffer →
      EntriesRun ev c ps earlier (.ok es, requests)
  /-- a pair has values, and its key is the first one that is equal to one before -/
  | duplicate {done rest : List (Expr × Expr)} {p : Expr × Expr} {es : Value.Entries} {k v : Value}
      {requests : List Request} : ps = done ++ p :: rest →
      (ev.evalPairs c (done ++ [p])).run.run earlier = (.ok (es ++ [(k, v)]), requests) →
      es.KeysDiffer → (∃ e ∈ es, k.same e.1 = true) →
      EntriesRun ev c ps earlier (.error (.duplicateKey k), requests)
  /-- a key or a value of a pair is an error, and the keys of the pairs before differ -/
  | failed {done rest : List (Expr × Expr)} {p : Expr × Expr} {es : Value.Entries} {e : EvalError}
      {between requests : List Request} : ps = done ++ p :: rest →
      (ev.evalPairs c done).run.run earlier = (.ok es, between) → es.KeysDiffer →
      (ev.evalPair c p).run.run between = (.error e, requests) →
      EntriesRun ev c ps earlier (.error e, requests)

variable (ev : Evaluator) (c : Context)

theorem evalPairs_snoc {done : List (Expr × Expr)} {p : Expr × Expr} {es : Value.Entries}
    {e : Value × Value} {earlier between requests : List Request}
    (hd : (ev.evalPairs c done).run.run earlier = (.ok es, between))
    (hp : (ev.evalPair c p).run.run between = (.ok e, requests)) :
    (ev.evalPairs c (done ++ [p])).run.run earlier = (.ok (es ++ [e]), requests) := by
  rw [evalPairs] at hd
  rw [evalPairs, List.mapM_append, EvalM.run_bind, hd]
  dsimp only
  rw [List.mapM_cons, List.mapM_nil, bind_assoc, EvalM.run_bind, hp]
  rfl

theorem evalEntries_cons (before : Value.Entries) (p : Expr × Expr) (rest : List (Expr × Expr)) :
    ev.evalEntries c before (p :: rest) = ev.evalPair c p >>= fun e =>
      if before.contains e.1 then throw (.duplicateKey e.1)
      else ev.evalEntries c (before ++ [e]) rest := by
  obtain ⟨key, value⟩ := p
  rw [evalEntries, evalPair]
  simp only [bind_assoc, pure_bind]
  refine bind_congr fun k => bind_congr fun v => ?_
  split <;> rfl

theorem evalEntries_run (rest : List (Expr × Expr)) {done : List (Expr × Expr)}
    {es : Value.Entries} {earlier between : List Request}
    (hd : (ev.evalPairs c done).run.run earlier = (.ok es, between)) (hes : es.KeysDiffer) :
    EntriesRun ev c (done ++ rest) earlier ((ev.evalEntries c es rest).run.run between) := by
  induction rest generalizing done es between with
  | nil =>
    rw [List.append_nil, evalEntries]
    exact .complete hd hes
  | cons p rest ih =>
    rw [evalEntries_cons, EvalM.run_bind]
    rcases hp : (ev.evalPair c p).run.run between with ⟨e | ⟨k, v⟩, requests⟩
    · exact .failed rfl hd hes hp
    · have hd' := evalPairs_snoc ev c hd hp
      cases hk : es.contains k with
      | true =>
        simp only [hk, if_true]
        exact .duplicate rfl hd' hes (Value.Entries.contains_iff.1 hk)
      | false =>
        rw [List.append_cons]
        simp only [hk, Bool.false_eq_true, if_false]
        exact ih hd' (hes.snoc v hk)

end Evaluator

end ExprLang
