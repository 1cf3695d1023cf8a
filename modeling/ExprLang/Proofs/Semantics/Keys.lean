import ExprLang.Proofs.Operator
import ExprLang.Proofs.Semantics.Folding
import ExprLang.Proofs.Semantics.Literal

/-!
# Evaluation keeps keys distinct

* `Expr.constants e`   the constants of a tree, from left to right.

What operators give holds no other values (`BinaryOp.apply_plain`), and what is taken out of a value
is a part of it (`Host.ensures_valueAt`).  New mappings come from the host, and from dictionary
literals, which test each key (`KeysDistinct.snoc`).  `Evaluator.denote_ensures` goes by the tree.
-/

namespace ExprLang

open Value

/-! ## constants -/

namespace Expr

mutual

def constants : Expr → List Value
  | .constant v => [v]
  | .var _ => []
  | .unary _ e => e.constants
  | .binary l _ r => l.constants ++ r.constants
  | .conditional c t e => c.constants ++ t.constants ++ e.constants
  | .member t _ => t.constants
  | .index t k => t.constants ++ k.constants
  | .call t args => t.constants ++ constantsOfList args
  | .array es => constantsOfList es
  | .dictionary ps => constantsOfPairs ps

/-- the constants of a list -/
def constantsOfList : List Expr → List Value
  | [] => []
  | e :: es => e.constants ++ constantsOfList es

/-- the constants of a list of pairs -/
def constantsOfPairs : List (Expr × Expr) → List Value
  | [] => []
  | (k, v) :: ps => k.constants ++ v.constants ++ constantsOfPairs ps

end

variable {P : Value → Prop}

theorem forall_mem_constantsOfList {es : List Expr} :
    (∀ v ∈ constantsOfList es, P v) ↔ ∀ e ∈ es, ∀ v ∈ e.constants, P v := by
  induction es with
  | nil => exact ⟨fun _ => nofun, fun _ => nofun⟩
  | cons e es ih => rw [constantsOfList, List.forall_mem_append, ih, List.forall_mem_cons]

theorem forall_mem_constantsOfPairs {ps : List (Expr × Expr)} :
    (∀ v ∈ constantsOfPairs ps, P v) ↔
      ∀ p ∈ ps, (∀ v ∈ p.1.constants, P v) ∧ ∀ v ∈ p.2.constants, P v := by
  induction ps with
  | nil => exact ⟨fun _ => nofun, fun _ => nofun⟩
  | cons p ps ih =>
    obtain ⟨k, w⟩ := p
    rw [constantsOfPairs, List.forall_mem_append, List.forall_mem_append, ih, List.forall_mem_cons]

end Expr

/-! ## values -/

theorem Value.IsPlain.keysDistinct {v : Value} (h : v.IsPlain) : KeysDistinct v := .plain h

/-- a key that the entries do not contain is different from theirs, also the other way round -/
theorem Value.KeysDistinct.snoc {es : Entries} {k v : Value} (h : KeysDistinct (.mapping es))
    (hk : KeysDistinct k) (hv : KeysDistinct v) (hc : es.contains k = false) :
    KeysDistinct (.mapping (es ++ [(k, v)])) := by
  have hmem : ∀ e ∈ es ++ [(k, v)], KeysDistinct e.1 ∧ KeysDistinct e.2 := by
    rw [List.forall_mem_append, List.forall_mem_singleton]
    exact ⟨h.entries.2, hk, hv⟩
  refine .mapping ?_ (fun e he => (hmem e he).1) fun e he => (hmem e he).2
  refine List.pairwise_append.2 ⟨h.entries.1, List.pairwise_singleton .., fun e he f hf => ?_⟩
  rw [List.mem_singleton.1 hf, same_comm (h.entries.2 e he).1 hk]
  exact Entries.not_same_of_contains hc he

theorem itemAt_keysDistinct {items : List Value} (h : KeysDistinct (.sequence items))
    (index : Decimal) : Yields KeysDistinct (itemAt items index) := by
  refine Yields.map (Q := fun _ => True) (fun _ _ => trivial) fun i _ => ?_
  cases hi : items[i]? with
  | none => exact .plain rfl
  | some v => exact h.items v (List.mem_of_getElem? hi)

theorem characterAt_plain (s : String) (index : Decimal) :
    Yields IsPlain (characterAt s index) := by
  refine Yields.map (Q := fun _ => True) (fun _ _ => trivial) fun i _ => ?_
  split <;> rfl

/-! ## requests -/

namespace Host

open EvalM

variable {h : Host} {start : List Request} (hh : h.KeepsKeys start)
include hh

theorem ensures_ask (request : Request) (hr : request.Holds KeysDistinct) :
    Ensures start KeysDistinct (Yields KeysDistinct) (h.ask request) :=
  .ask request hr fun earlier he => hh earlier request he hr

/-- the answer to a request, or an error that says why there is none -/
theorem ensures_answer (request : Request) (hr : request.Holds KeysDistinct)
    (f : HostError → EvalError) :
    Ensures start KeysDistinct KeysDistinct (h.ask request >>= fun r =>
      match r with
      | .ok v => pure v
      | .error e => throw (f e)) := by
  refine (ensures_ask hh request hr).bind fun r hv => ?_
  cases r with
  | ok v => exact .pure (hv v rfl)
  | error e => exact .throw _

theorem ensures_readMember {target : Value} (ht : KeysDistinct target) (name : String) :
    Ensures start KeysDistinct KeysDistinct (h.readMember target name) :=
  ensures_answer hh (.read target name) ht _

theorem ensures_callValue {callee : Value} {args : List Value} (hc : KeysDistinct callee)
    (hargs : ∀ v ∈ args, KeysDistinct v) (name : String) :
    Ensures start KeysDistinct KeysDistinct (h.callValue callee args name) := by
  unfold callValue
  split
  · exact ensures_answer hh (.call _ args) ⟨hc, hargs⟩ _
  · exact .throw _

theorem ensures_callMethod {target : Value} {args : List Value} (ht : KeysDistinct target)
    (hargs : ∀ v ∈ args, KeysDistinct v) (name : String) :
    Ensures start KeysDistinct KeysDistinct (h.callMethod target name args) := by
  refine (ensures_ask hh (.invoke target name args) ⟨ht, hargs⟩).bind fun r hr => ?_
  cases r with
  | ok v => exact .pure (hr v rfl)
  | error e =>
    cases e with
    | notFound =>
      exact (ensures_readMember hh ht name).bind fun callee hc => ensures_callValue hh hc hargs name
    | notCallable => exact .throw _
    | failed failure => exact .throw _

theorem ensures_valueAt {target key : Value} (ht : KeysDistinct target) (hk : KeysDistinct key) :
    Ensures start KeysDistinct KeysDistinct (h.valueAt target key) := by
  unfold valueAt
  split
  · exact .ofExcept (itemAt_keysDistinct ht _)
  · exact .ofExcept fun v hv => (characterAt_plain _ _ v hv).keysDistinct
  · exact .throw _
  · exact .throw _
  · split
    · next v hv => exact .pure (ht.find? hv)
    · exact .throw _
  · exact ensures_answer hh (.index target key) ⟨ht, hk⟩ _

end Host

/-! ## expressions -/

namespace Evaluator

open EvalM

variable {ev : Evaluator} {c : Context} {start : List Request}

theorem operate_ensures (op : BinaryOp) (v : Value) {x : EvalM Value}
    (hx : Ensures start KeysDistinct KeysDistinct x) :
    Ensures start KeysDistinct KeysDistinct (ev.operate op v x) := by
  have applied (op : BinaryOp) (w : Value) : Ensures start KeysDistinct KeysDistinct
      (EvalM.ofExcept (op.apply ev.comparer v w)) :=
    .ofExcept fun u hu => (op.apply_plain ev.comparer v w u hu).keysDistinct
  cases op with
  | and =>
    rw [operate]
    split
    · exact hx.bind fun _ _ => .pure (.plain rfl)
    · exact .pure (.plain rfl)
  | or =>
    rw [operate]
    split
    · exact .pure (.plain rfl)
    · exact hx.bind fun _ _ => .pure (.plain rfl)
  | _ => exact hx.bind fun w _ => applied _ w

theorem denoteAll_ensures {es : List Expr}
    (h : ∀ e ∈ es, Ensures start KeysDistinct KeysDistinct (ev.denote c e)) :
    Ensures start KeysDistinct (fun vs => ∀ v ∈ vs, KeysDistinct v) (ev.denoteAll c es) := by
  induction es with
  | nil =>
    rw [denoteAll]
    refine .pure fun v hv => ?_
    cases hv
  | cons e es ih =>
    rw [List.forall_mem_cons] at h
    rw [denoteAll]
    refine h.1.bind fun v hv => (ih h.2).bind fun vs hvs => .pure ?_
    exact List.forall_mem_cons.2 ⟨hv, hvs⟩

theorem denoteEntries_ensures {ps : List (Expr × Expr)} {before : Entries}
    (hb : KeysDistinct (.mapping before))
    (h : ∀ p ∈ ps, Ensures start KeysDistinct KeysDistinct (ev.denote c p.1) ∧
      Ensures start KeysDistinct KeysDistinct (ev.denote c p.2)) :
    Ensures start KeysDistinct (fun es => KeysDistinct (.mapping es))
      (ev.denoteEntries c before ps) := by
  induction ps generalizing before with
  | nil =>
    rw [denoteEntries]
    exact .pure hb
  | cons p ps ih =>
    obtain ⟨key, value⟩ := p
    rw [List.forall_mem_cons] at h
    rw [denoteEntries]
    refine h.1.1.bind fun k hk => h.1.2.bind fun v hv => ?_
    dsimp only
    split
    · exact (Ensures.throw (Q := fun _ => False) _).bind fun _ hf => hf.elim
    · next hc => exact ih (hb.snoc hk hv (Bool.eq_false_iff.2 hc)) h.2

theorem denote_ensures (hh : ev.host.KeepsKeys start)
    (hc : ∀ name v, c.get? name = some v → KeysDistinct v) {e : Expr}
    (he : ∀ v ∈ e.constants, KeysDistinct v) :
    Ensures start KeysDistinct KeysDistinct (ev.denote c e) := by
  induction e with
  | constant v =>
    rw [denote]
    exact .pure (he v (List.mem_singleton_self v))
  | var name =>
    rw [denote]
    refine .pure ?_
    show KeysDistinct ((c.get? name).getD .null)
    cases hn : c.get? name with
    | none => exact .plain rfl
    | some v => exact hc name v hn
  | unary op e ih =>
    rw [denote]
    exact (ih he).bind fun v _ => .ofExcept fun w hw => (op.apply_plain v w hw).keysDistinct
  | binary l op r ihl ihr =>
    obtain ⟨hl, hr⟩ := List.forall_mem_append.1 he
    rw [denote]
    exact (ihl hl).bind fun v _ => operate_ensures op v (ihr hr)
  | conditional q t f ihq iht ihf =>
    obtain ⟨he, hf⟩ := List.forall_mem_append.1 he
    obtain ⟨hq, ht⟩ := List.forall_mem_append.1 he
    rw [denote]
    refine (ihq hq).bind fun v _ => ?_
    split
    · exact iht ht
    · exact ihf hf
  | member t name ih =>
    rw [denote]
    exact (ih he).bind fun v hv => Host.ensures_readMember hh hv name
  | index t key iht ihk =>
    obtain ⟨ht, hk⟩ := List.forall_mem_append.1 he
    rw [denote]
    exact (iht ht).bind fun v hv => (ihk hk).bind fun k hk => Host.ensures_valueAt hh hv hk
  | method t name args ih hargs =>
    obtain ⟨ht, ha⟩ := List.forall_mem_append.1 he
    have hall := denoteAll_ensures fun e h => hargs e h (Expr.forall_mem_constantsOfList.1 ha e h)
    rw [denote]
    exact (ih ht).bind fun v hv => hall.bind fun vs hvs => Host.ensures_callMethod hh hv hvs name
  | call t args hm ih hargs =>
    obtain ⟨ht, ha⟩ := List.forall_mem_append.1 he
    have hall := denoteAll_ensures fun e h => hargs e h (Expr.forall_mem_constantsOfList.1 ha e h)
    rw [denote.eq_9 _ _ _ _ hm]
    exact (ih ht).bind fun v hv => hall.bind fun vs hvs => Host.ensures_callValue hh hv hvs _
  | array es hes =>
    have hall := denoteAll_ensures fun e h => hes e h (Expr.forall_mem_constantsOfList.1 he e h)
    rw [denote]
    exact hall.bind fun vs hvs => .pure (.sequence hvs)
  | dictionary ps hps =>
    have hparts := Expr.forall_mem_constantsOfPairs.1 he
    have hall : Ensures start KeysDistinct (fun es => KeysDistinct (.mapping es))
        (ev.denoteEntries c [] ps) :=
      denoteEntries_ensures keysDistinct_empty fun p hp =>
        ⟨(hps p hp).1 (hparts p hp).1, (hps p hp).2 (hparts p hp).2⟩
    rw [denote]
    exact hall.bind fun es hes => .pure hes

/-- evaluation keeps keys distinct if the host does, as the standard one with such functions; and a
dictionary literal has all of its pairs, or ends with an error -/
theorem eval_keysDistinct (ev : Evaluator) (c : Context) (start : List Request) :
    (ev.host.KeepsKeys start → (∀ name v, c.get? name = some v → KeysDistinct v) →
      ∀ e : Expr, (∀ v ∈ e.constants, KeysDistinct v) →
        Ensures start KeysDistinct KeysDistinct (ev.eval c e)) ∧
    (∀ functions : Functions, functions.KeepKeys → (Host.standard functions).KeepsKeys start) ∧
    ∀ ps, ∃ r requests, EntriesRun ev c ps start (r, requests) ∧
      (ev.eval c (.dictionary ps)).run.run start = (r.map .mapping, requests) := by
  refine ⟨fun hh hc e he => ?_, fun functions hf => Host.keepsKeys_standard hf start, fun ps => ?_⟩
  · rw [eval_eq_denote]
    exact denote_ensures hh hc he
  · have hnone : (ev.evalPairs c []).run.run start = (.ok [], start) := rfl
    have hrun := ev.evalEntries_run c ps hnone .nil
    rcases hr : (ev.evalEntries c [] ps).run.run start with ⟨r, requests⟩
    rw [hr] at hrun
    refine ⟨r, requests, hrun, ?_⟩
    rw [eval, run_bind, hr]
    cases r <;> rfl

/-- a key that is a sequence, and a second one that is equal to it but for the scale of a number; what
stands behind the pairs is not reached -/
theorem eval_keysDistinct_scaled :
    let ev : Evaluator := ⟨⟨{}, .identity⟩, .standard fun _ => none⟩
    let m : Value := .mapping [(.number Decimal.one, .null), (.text "k", .null)]
    let c := Context.ofList [("m", m)]
    let one : Value := .number { negative := false, mantissa := 10, scale := 1 }
    let first : Expr × Expr := (.array [.constant (.number .one)], .member (.var "m") "Keys")
    let second : Expr × Expr := (.array [.constant one], .constant .null)
    let third : Expr × Expr := (.constant .null, .call (.var "m") [])
    Ensures [] KeysDistinct KeysDistinct (ev.eval c (.dictionary [first, second, third])) ∧
      (ev.eval c (.dictionary [first, second, third])).run.run [] =
        (.error (.duplicateKey (.sequence [one])), [.read m "Keys"]) := by
  intro ev m c one first second third
  refine ⟨(eval_keysDistinct ev c []).1 ?_ ?_ _ ?_, ?_⟩
  · exact (eval_keysDistinct ev c []).2.1 _ Functions.keepKeys_none
  · intro name v h
    obtain ⟨before, after, hb, -⟩ := List.lookup_eq_some_iff.1 h
    have hv : (name, v) ∈ [("m", m)] := by
      show (name, v) ∈ c.bindings
      rw [hb]
      exact List.mem_append_right _ (List.mem_cons_self ..)
    cases List.mem_singleton.1 hv
    decide
  · show ∀ v ∈ [.number .one, one, .null, .null], KeysDistinct v
    simp only [List.forall_mem_cons]
    refine ⟨.plain rfl, .plain rfl, .plain rfl, .plain rfl, fun v hv => ?_⟩
    cases hv
  · rw [eval_eq_denote]
    rfl

end Evaluator

end ExprLang
