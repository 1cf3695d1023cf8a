import ExprLang.Expr

/-!
# Induction on expressions

`Expr.induct`: what holds of an expression if it holds of its parts, holds of every expression.  The
call of a member is a case of its own, in which the receiver is the part, and not the member.

`Expr.mem_names` and the lemmas before it say which variables an expression has.
-/

namespace ExprLang.Expr

@[elab_as_elim, induction_eliminator]
theorem induct {motive : Expr → Prop}
    (constant : ∀ v, motive (.constant v))
    (var : ∀ name, motive (.var name))
    (unary : ∀ op e, motive e → motive (.unary op e))
    (binary : ∀ l op r, motive l → motive r → motive (.binary l op r))
    (conditional : ∀ q t f, motive q → motive t → motive f → motive (.conditional q t f))
    (member : ∀ t name, motive t → motive (.member t name))
    (index : ∀ t key, motive t → motive key → motive (.index t key))
    (method : ∀ t name args, motive t → (∀ e ∈ args, motive e) →
      motive (.call (.member t name) args))
    (call : ∀ t args, (∀ u name, t ≠ .member u name) → motive t → (∀ e ∈ args, motive e) →
      motive (.call t args))
    (array : ∀ es, (∀ e ∈ es, motive e) → motive (.array es))
    (dictionary : ∀ ps, (∀ p ∈ ps, motive p.1 ∧ motive p.2) → motive (.dictionary ps))
    (e : Expr) : motive e := by
  -- by the size, since the receiver of a method lies two levels below the call
  induction hs : sizeOf e using Nat.strongRecOn generalizing e with
  | ind n ih =>
    subst hs
    cases e with
    | constant v => exact constant v
    | var name => exact var name
    | unary op e => exact unary op e (ih _ (by simp +arith) e rfl)
    | binary l op r =>
      exact binary l op r (ih _ (by simp +arith) l rfl) (ih _ (by simp +arith) r rfl)
    | conditional q t f =>
      exact conditional q t f (ih _ (by simp +arith) q rfl) (ih _ (by simp +arith) t rfl)
        (ih _ (by simp +arith) f rfl)
    | member t name => exact member t name (ih _ (by simp +arith) t rfl)
    | index t key =>
      exact index t key (ih _ (by simp +arith) t rfl) (ih _ (by simp +arith) key rfl)
    | call t args =>
      have hargs : ∀ e ∈ args, motive e := by
        intro e he
        exact ih _ (Nat.lt_trans (List.sizeOf_lt_of_mem he) (by simp +arith)) e rfl
      by_cases hm : ∃ u name, t = .member u name
      · obtain ⟨u, name, rfl⟩ := hm
        exact method u name args (ih _ (by simp +arith) u rfl) hargs
      · exact call t args (fun u name h => hm ⟨u, name, h⟩) (ih _ (by simp +arith) t rfl) hargs
    | array es =>
      refine array es fun e he => ?_
      exact ih _ (Nat.lt_trans (List.sizeOf_lt_of_mem he) (by simp +arith)) e rfl
    | dictionary ps =>
      refine dictionary ps fun ⟨k, v⟩ hp => ?_
      have h : sizeOf (k, v) < sizeOf (Expr.dictionary ps) :=
        Nat.lt_trans (List.sizeOf_lt_of_mem hp) (by simp +arith)
      simp only [Prod.mk.sizeOf_spec] at h
      exact ⟨ih _ (by omega) k rfl, ih _ (by omega) v rfl⟩

/-! ## variables -/

variable {name : String}

theorem mem_mentionsOfList {es : List Expr} :
    name ∈ mentionsOfList es ↔ ∃ e ∈ es, name ∈ e.mentions := by
  induction es with
  | nil => simp [mentionsOfList]
  | cons e es ih => simp [mentionsOfList, ih]

theorem mem_mentionsOfPairs {ps : List (Expr × Expr)} :
    name ∈ mentionsOfPairs ps ↔ ∃ p ∈ ps, name ∈ p.1.mentions ∨ name ∈ p.2.mentions := by
  induction ps with
  | nil => simp [mentionsOfPairs]
  | cons p ps ih =>
    obtain ⟨k, v⟩ := p
    simp [mentionsOfPairs, ih, or_assoc]

theorem mem_names {e : Expr} : name ∈ e.names ↔ name ∈ e.mentions :=
  List.mem_eraseDups

end ExprLang.Expr
