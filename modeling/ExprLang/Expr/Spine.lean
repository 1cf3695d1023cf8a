import ExprLang.Expr

/-!
# Spines

A run of binary operators leans to the left, and so does a run of members, positions and calls.  Its
spine is the innermost expression and the links outwards, in the order of the source text.

* `Expr.operatorSpine`   the leftmost operand, and each operator with its right operand;
* `Link`                 one step of a postfix chain; a call of a member is one step;
* `Expr.accessSpine`     the innermost target and the steps;
* `operandsWeight`, `linksWeight`   measures of the expressions in the links.

`operatorSpine_lt` and `accessSpine_lt` say that the innermost expression and the links weigh less
than the expression they are from.
-/

namespace ExprLang

inductive Link where
  | member (name : String)
  | index (key : Expr)
  | method (name : String) (args : List Expr)
  /-- a call of the value so far, which is the variable of the name, if any -/
  | call (name : Option String) (args : List Expr)

namespace Expr

/-- the name of a variable -/
def varName? : Expr → Option String
  | .var name => some name
  | _ => none

def operatorSpine : Expr → List (BinaryOp × Expr) → Expr × List (BinaryOp × Expr)
  | .binary l op r, after => operatorSpine l ((op, r) :: after)
  | e, after => (e, after)

def accessSpine : Expr → List Link → Expr × List Link
  | .member t name, after => accessSpine t (.member name :: after)
  | .index t key, after => accessSpine t (.index key :: after)
  | .call (.member t name) args, after => accessSpine t (.method name args :: after)
  | .call t args, after => accessSpine t (.call t.varName? args :: after)
  | e, after => (e, after)

end Expr

/-! ## weights -/

/-- the size of the right operands -/
noncomputable def operandsWeight : List (BinaryOp × Expr) → Nat
  | [] => 0
  | (_, e) :: rest => sizeOf e + 1 + operandsWeight rest

/-- the size of the expressions in a step -/
noncomputable def Link.weight : Link → Nat
  | .member _ => 0
  | .index key => sizeOf key
  | .method _ args | .call _ args => sizeOf args

/-- the size of the expressions in steps -/
noncomputable def linksWeight : List Link → Nat
  | [] => 0
  | l :: rest => l.weight + 1 + linksWeight rest

theorem Expr.sizeOf_pos (e : Expr) : 0 < sizeOf e := by
  cases e <;> simp +arith

theorem Expr.sizeOf_name_pos (name : String) : 0 < sizeOf name := by
  cases name
  simp +arith

theorem Expr.weight_operatorSpine (e : Expr) (after : List (BinaryOp × Expr)) :
    sizeOf (e.operatorSpine after).1 + operandsWeight (e.operatorSpine after).2 ≤
      sizeOf e + operandsWeight after := by
  fun_induction Expr.operatorSpine e after with
  | case1 l op r after ih =>
    simp only [operandsWeight, Expr.binary.sizeOf_spec] at ih ⊢
    omega
  | case2 => exact Nat.le_refl _

theorem Expr.operandsWeight_le (e : Expr) (after : List (BinaryOp × Expr)) :
    operandsWeight after ≤ operandsWeight (e.operatorSpine after).2 := by
  fun_induction Expr.operatorSpine e after with
  | case1 l op r after ih =>
    simp only [operandsWeight] at ih ⊢
    omega
  | case2 => exact Nat.le_refl _

theorem Expr.weight_accessSpine (e : Expr) (after : List Link) :
    sizeOf (e.accessSpine after).1 + linksWeight (e.accessSpine after).2 ≤
      sizeOf e + linksWeight after := by
  fun_induction Expr.accessSpine e after with
  | case1 t name after ih =>
    have := Expr.sizeOf_name_pos name
    simp only [linksWeight, Link.weight, Expr.member.sizeOf_spec] at ih ⊢
    omega
  | case2 t key after ih =>
    simp only [linksWeight, Link.weight, Expr.index.sizeOf_spec] at ih ⊢
    omega
  | case3 t name args after ih =>
    simp only [linksWeight, Link.weight, Expr.call.sizeOf_spec, Expr.member.sizeOf_spec] at ih ⊢
    omega
  | case4 t args after h ih =>
    simp only [linksWeight, Link.weight, Expr.call.sizeOf_spec] at ih ⊢
    omega
  | case5 => exact Nat.le_refl _

theorem Expr.linksWeight_le (e : Expr) (after : List Link) :
    linksWeight after ≤ linksWeight (e.accessSpine after).2 := by
  fun_induction Expr.accessSpine e after with
  | case1 t name after ih | case2 t key after ih | case3 t name args after ih
  | case4 t args after h ih =>
    simp only [linksWeight] at ih
    omega
  | case5 => exact Nat.le_refl _

/-! ## the parts of a spine are smaller than the expression -/

theorem Expr.operatorSpine_lt (l : Expr) (op : BinaryOp) (r : Expr) :
    sizeOf (l.operatorSpine [(op, r)]).1 < sizeOf (Expr.binary l op r) ∧
      operandsWeight (l.operatorSpine [(op, r)]).2 < sizeOf (Expr.binary l op r) := by
  have h1 := l.weight_operatorSpine [(op, r)]
  have h2 := l.operandsWeight_le [(op, r)]
  have h3 := (l.operatorSpine [(op, r)]).1.sizeOf_pos
  simp only [operandsWeight, Expr.binary.sizeOf_spec] at h1 h2 ⊢
  omega

/-- an expression that is a step, and has one at the end of its spine -/
def Expr.isAccess : Expr → Bool
  | .member .. | .index .. | .call .. => true
  | _ => false

theorem Expr.linksWeight_pos {e : Expr} (h : e.isAccess = true) :
    0 < linksWeight (e.accessSpine []).2 := by
  have le (t : Expr) (l : Link) : 0 < linksWeight (t.accessSpine [l]).2 := by
    have := t.linksWeight_le [l]
    simp only [linksWeight] at this
    omega
  match e, h with
  | .member t name, _ =>
    rw [accessSpine]
    exact le ..
  | .index t key, _ =>
    rw [accessSpine]
    exact le ..
  | .call t args, _ =>
    by_cases hm : ∃ u name, t = .member u name
    · obtain ⟨u, name, rfl⟩ := hm
      rw [accessSpine]
      exact le ..
    · rw [accessSpine]
      · exact le ..
      · exact fun u name h => hm ⟨u, name, h⟩

theorem Expr.accessSpine_lt {e : Expr} (h : e.isAccess = true) :
    sizeOf (e.accessSpine []).1 < sizeOf e ∧ linksWeight (e.accessSpine []).2 < sizeOf e := by
  have h1 := e.weight_accessSpine []
  have h2 := Expr.linksWeight_pos h
  have h3 := (e.accessSpine []).1.sizeOf_pos
  simp only [linksWeight] at h1
  omega

end ExprLang
