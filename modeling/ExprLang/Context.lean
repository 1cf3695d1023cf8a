import ExprLang.Value.Basic

/-!
# Contexts

A context binds names to values, each name once.

* `Context.get?`, `value`      the value of a name, none or null if it is not bound;
* `Context.set`, `remove`, `extend`
* `Context.names`, `size`
-/

namespace ExprLang

structure Context where
  bindings : List (String × Value) := []
  nodup : (bindings.map (·.1)).Nodup := by simp

namespace Context

def empty : Context := {}

/-- the value of the name, none if it is not bound -/
def get? (c : Context) (name : String) : Option Value := c.bindings.lookup name

/-- the value of the name, null if it is not bound -/
def value (c : Context) (name : String) : Value := (c.get? name).getD .null

def contains (c : Context) (name : String) : Bool := (c.get? name).isSome

/-- the context without the name -/
def remove (c : Context) (name : String) : Context where
  bindings := c.bindings.filter (·.1 != name)
  nodup := c.nodup.sublist (List.filter_sublist.map _)

/-- the context with this value for the name -/
def set (c : Context) (name : String) (v : Value) : Context where
  bindings := (name, v) :: (c.remove name).bindings
  nodup := by
    refine List.nodup_cons.2 ⟨?_, (c.remove name).nodup⟩
    simp [remove]

/-- the context with the values of a list of names, of which the last one of a name counts -/
def extend (c : Context) (bindings : List (String × Value)) : Context :=
  bindings.foldl (fun c b => c.set b.1 b.2) c

def ofList (bindings : List (String × Value)) : Context := empty.extend bindings

def names (c : Context) : List String := c.bindings.map (·.1)

def size (c : Context) : Nat := c.bindings.length

def isEmpty (c : Context) : Bool := c.bindings.isEmpty

/-! ## what the operations do to a name -/

theorem lookup_filter_ne {name other : String} (bs : List (String × Value)) (h : name ≠ other) :
    (bs.filter (·.1 != other)).lookup name = bs.lookup name := by
  induction bs with
  | nil => rfl
  | cons b bs ih =>
    obtain ⟨n, v⟩ := b
    by_cases hn : n = other
    · subst hn
      have : (name == n) = false := by simp [h]
      simp [ih, List.lookup_cons, this]
    · by_cases hm : name = n
      · simp [hm, hn]
      · have : (name == n) = false := by simp [hm]
        simp [hn, List.lookup_cons, this, ih]

theorem lookup_filter_self (name : String) (bs : List (String × Value)) :
    (bs.filter (·.1 != name)).lookup name = none := by
  induction bs with
  | nil => rfl
  | cons b bs ih =>
    obtain ⟨n, v⟩ := b
    by_cases hn : n = name
    · simp [hn, ih]
    · have : (name == n) = false := by simp [Ne.symm hn]
      simp [hn, List.lookup_cons, this, ih]

theorem get?_remove_self (c : Context) (name : String) : (c.remove name).get? name = none :=
  lookup_filter_self name c.bindings

theorem get?_remove_ne (c : Context) {name other : String} (h : name ≠ other) :
    (c.remove other).get? name = c.get? name :=
  lookup_filter_ne c.bindings h

theorem get?_set_self (c : Context) (name : String) (v : Value) :
    (c.set name v).get? name = some v := by
  simp [get?, set]

theorem get?_set_ne (c : Context) {name other : String} (v : Value) (h : name ≠ other) :
    (c.set other v).get? name = c.get? name := by
  have : (name == other) = false := by simp [h]
  simpa [get?, set, List.lookup_cons, this] using get?_remove_ne c h

end Context

end ExprLang
