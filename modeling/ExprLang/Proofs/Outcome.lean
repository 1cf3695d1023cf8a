/-!
# Results

A result that is mapped succeeds and fails where the result does: `map_eq_ok`, `map_eq_error`.  Bound
results succeed where both do: `bind_eq_ok`.

* `Yields Q r`          the value of the result, if it has one, satisfies `Q`;
* `Below lifted r r'`   the result `r'` is `r`, or `r` is an error that is lifted.

What is put together from results yields what its last step yields (`Yields.bind`).
-/

namespace ExprLang

variable {ε α β : Type} {r : Except ε α} {f : α → β}

theorem map_eq_ok {b : β} : r.map f = .ok b ↔ ∃ a, r = .ok a ∧ f a = b := by
  cases r with
  | error e =>
    refine ⟨nofun, ?_⟩
    intro h
    obtain ⟨_, h, _⟩ := h
    cases h
  | ok a =>
    constructor
    · intro h
      cases h
      exact ⟨a, rfl, rfl⟩
    · intro h
      obtain ⟨_, h, rfl⟩ := h
      cases h
      rfl

theorem map_eq_error {e : ε} : r.map f = .error e ↔ r = .error e := by
  cases r with
  | error e' =>
    constructor
    · intro h
      cases h
      rfl
    · intro h
      cases h
      rfl
  | ok a => exact ⟨nofun, nofun⟩

theorem bind_eq_ok {g : α → Except ε β} {b : β} :
    r >>= g = .ok b ↔ ∃ a, r = .ok a ∧ g a = .ok b := by
  cases r with
  | error e =>
    constructor
    · intro h
      cases h
    · intro h
      obtain ⟨_, h, _⟩ := h
      cases h
  | ok a =>
    constructor
    · intro h
      exact ⟨a, rfl, h⟩
    · intro h
      obtain ⟨_, h, hg⟩ := h
      cases h
      exact hg

/-! ## values -/

def Yields (Q : α → Prop) (r : Except ε α) : Prop := ∀ a, r = .ok a → Q a

namespace Yields

variable {Q : α → Prop}

theorem ok {a : α} (h : Q a) : Yields Q (.ok a : Except ε α) := by
  intro b hb
  cases hb
  exact h

theorem error (e : ε) : Yields Q (.error e) := nofun

theorem bind {R : β → Prop} {g : α → Except ε β} (h : Yields Q r)
    (hg : ∀ a, Q a → Yields R (g a)) : Yields R (r >>= g) := by
  cases r with
  | error e => exact error e
  | ok a => exact hg a (h a rfl)

theorem map {R : β → Prop} (h : Yields Q r) (hf : ∀ a, Q a → R (f a)) : Yields R (r.map f) := by
  intro b hb
  obtain ⟨a, ha, rfl⟩ := map_eq_ok.1 hb
  exact hf a (h a ha)

/-- nothing need be known of the value before -/
theorem then_any {R : β → Prop} {g : α → Except ε β} (hg : ∀ a, Yields R (g a)) :
    Yields R (r >>= g) :=
  Yields.bind (fun _ _ => True.intro) fun a _ => hg a

end Yields

/-! ## with errors lifted -/

def Below (lifted : ε → Prop) (r r' : Except ε α) : Prop :=
  (∃ e, r = .error e ∧ lifted e) ∨ r' = r

namespace Below

variable {lifted : ε → Prop} {r r' : Except ε α}

theorem refl (r : Except ε α) : Below lifted r r := .inr rfl

theorem of_eq (h : r' = r) : Below lifted r r' := .inr h

theorem error {e : ε} (h : lifted e) : Below lifted (.error e) r' := .inl ⟨e, rfl, h⟩

theorem map (h : Below lifted r r') (f : α → β) : Below lifted (r.map f) (r'.map f) := by
  rcases h with ⟨e, rfl, he⟩ | rfl
  · exact error he
  · exact refl _

end Below

end ExprLang
