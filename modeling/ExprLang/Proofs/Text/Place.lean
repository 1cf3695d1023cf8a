import ExprLang.Text.Lines
import ExprLang.Proofs.Token.Coverage

/-!
# Places and lines

Two readings of one text: the place of an offset counts the characters in front of it, the lines are
cut at the line feeds and lose a carriage return there.  Both go from the left, so they are compared
along the prefixes of the text.

* `Place.Before p q`      `p` is on an earlier line than `q`, or on its line in an earlier column;
* `Place.step p c`        the place behind the character `c` that stands at `p`;
* `placeAfter a`          the place behind the text `a`;
* `Place.Holds p ls c`    the line of `p` is one of the lines `ls` and has `c` in the column of `p`;
* `Begun a done rev`      behind `a` the lines `done` are finished and a line is begun, with `rev` in
                          reverse, whatever text goes on from there.

`lineCol_append`, `exists_cut`: an offset has the place behind a prefix, namely behind the
characters that start in front of it.  `exists_begun`: this place counts the finished lines and the
characters of the line that is begun.  `exists_line`: what is begun stays at the start of its line,
but for a carriage return that a line feed follows.
-/

namespace ExprLang.Text

namespace Place

def Before (p q : Place) : Prop := p.line < q.line ∨ p.line = q.line ∧ p.column < q.column

def step (p : Place) (c : Char) : Place :=
  if c = '\n' then ⟨p.line + 1, 1⟩ else ⟨p.line, p.column + 1⟩

def Holds (p : Place) (ls : List (List Char)) (c : Char) : Prop :=
  ∃ l k cs, p = ⟨l + 1, k + 1⟩ ∧ ls[l]? = some cs ∧ cs[k]? = some c

variable {p q r : Place}

theorem Before.trans (h : p.Before q) (h' : q.Before r) : p.Before r := by
  unfold Before at *
  omega

theorem Before.irrefl (p : Place) : ¬ p.Before p := by
  unfold Before
  omega

theorem before_step (p : Place) (c : Char) : p.Before (p.step c) := by
  rw [step]
  split
  · exact .inl (Nat.lt_succ_self _)
  · exact .inr ⟨rfl, Nat.lt_succ_self _⟩

theorem before_foldl (p : Place) (c : Char) (cs : List Char) :
    p.Before ((c :: cs).foldl step p) := by
  induction cs generalizing p c with
  | nil => exact before_step p c
  | cons d cs ih => exact (before_step p c).trans (ih (p.step c) d)

end Place

def placeAfter (a : List Char) : Place := a.foldl Place.step ⟨1, 1⟩

structure Begun (a : List Char) (done : List (List Char)) (rev : List Char) : Prop where
  cut : ∀ b, lines (a ++ b) = done ++ linesFrom rev b
  place : placeAfter a = ⟨done.length + 1, rev.length + 1⟩
  suffix : rev.reverse <:+ a

variable {a b cs rev : List Char} {done : List (List Char)} {c : Char} {o o₁ o₂ : Nat}

/-! ## the place of an offset -/

theorem placeFrom_step (p : Place) (start offset : Nat) (c : Char) (cs : List Char) :
    placeFrom p start offset (c :: cs) =
      if offset ≤ start then p else placeFrom (p.step c) (start + c.utf8Size) offset cs :=
  placeFrom_cons ..

theorem placeFrom_append (p : Place) (start : Nat) (a b : List Char) :
    placeFrom p start (start + byteLength a) (a ++ b) = a.foldl Place.step p := by
  induction a generalizing p start with
  | nil =>
    cases b with
    | nil => rfl
    | cons c b => exact if_pos (Nat.le_refl _)
  | cons c a ih =>
    have hc := byteLength_cons_pos c a
    rw [List.cons_append, placeFrom_step, if_neg (by omega), byteLength_cons, ← Nat.add_assoc, ih]
    rfl

theorem lineCol_append (a b : List Char) : lineCol (a ++ b) (byteLength a) = placeAfter a := by
  have h := placeFrom_append ⟨1, 1⟩ 0 a b
  rwa [Nat.zero_add] at h

/-- the characters that count start in front of the offset, and it is not in front of any other -/
theorem exists_cut_from (p : Place) (start o : Nat) (cs : List Char) : ∃ a b, cs = a ++ b ∧
    placeFrom p start o cs = a.foldl Place.step p ∧ (b ≠ [] → o ≤ start + byteLength a) ∧
    ∀ a' c, a = a' ++ [c] → start + byteLength a' < o := by
  induction cs generalizing p start with
  | nil => exact ⟨[], [], rfl, rfl, fun h => absurd rfl h, fun a' c h => by simp at h⟩
  | cons c cs ih =>
    rw [placeFrom_step]
    split
    · next ho => exact ⟨[], c :: cs, rfl, rfl, fun _ => ho, fun a' c h => by simp at h⟩
    · next ho =>
      obtain ⟨a, b, rfl, hp, hb, ha⟩ := ih (p.step c) (start + c.utf8Size)
      refine ⟨c :: a, b, rfl, hp, fun h => ?_, fun a' d h => ?_⟩
      · rw [byteLength_cons, ← Nat.add_assoc]
        exact hb h
      · cases a' with
        | nil => exact Nat.not_le.1 ho
        | cons e a' =>
          obtain ⟨rfl, htail⟩ := List.cons.inj h
          rw [byteLength_cons, ← Nat.add_assoc]
          exact ha a' d htail

theorem exists_cut (cs : List Char) (o : Nat) : ∃ a b, cs = a ++ b ∧
    lineCol cs o = placeAfter a ∧ (b ≠ [] → o ≤ byteLength a) ∧
    ∀ a' c, a = a' ++ [c] → byteLength a' < o := by
  obtain ⟨a, b, h, hp, hb, ha⟩ := exists_cut_from ⟨1, 1⟩ 0 o cs
  simp only [Nat.zero_add] at hb ha
  exact ⟨a, b, h, hp, hb, ha⟩

/-- past the end there is only the place of the end -/
theorem lineCol_of_ge (h : byteLength cs ≤ o) : lineCol cs o = lineCol cs (byteLength cs) := by
  obtain ⟨a, b, rfl, hp, hb, -⟩ := exists_cut cs o
  obtain rfl : b = [] := by
    refine Classical.byContradiction fun hne => ?_
    have ho := hb hne
    rw [byteLength_append] at h
    exact hne (byteLength_eq_zero (by omega))
  rw [hp, List.append_nil]
  exact (lineCol_append a []).symm.trans (by rw [List.append_nil])

theorem placeAfter_before (a : List Char) (hb : b ≠ []) :
    (placeAfter a).Before (placeAfter (a ++ b)) := by
  obtain ⟨c, b, rfl⟩ := List.exists_cons_of_ne_nil hb
  rw [placeAfter, placeAfter, List.foldl_append]
  exact Place.before_foldl _ c b

variable {s : String}

theorem lineCol_before (h₁ : IsBoundary s o₁) (h₂ : IsBoundary s o₂) (h : o₁ < o₂) :
    (lineCol s.toList o₁).Before (lineCol s.toList o₂) := by
  obtain ⟨a₁, b₁, hs₁, rfl⟩ := h₁
  obtain ⟨a₂, b₂, hs₂, rfl⟩ := h₂
  rcases List.append_eq_append_iff.1 (hs₁.symm.trans hs₂) with ⟨m, rfl, -⟩ | ⟨m, rfl, -⟩
  · have hm : m ≠ [] := by
      rintro rfl
      rw [List.append_nil] at h
      exact Nat.lt_irrefl _ h
    have hp₁ : lineCol s.toList (byteLength a₁) = placeAfter a₁ := by rw [hs₁, lineCol_append]
    rw [hp₁, hs₂, lineCol_append]
    exact placeAfter_before a₁ hm
  · rw [byteLength_append] at h
    omega

theorem lineCol_before_iff (h₁ : IsBoundary s o₁) (h₂ : IsBoundary s o₂) :
    o₁ < o₂ ↔ (lineCol s.toList o₁).Before (lineCol s.toList o₂) := by
  refine ⟨lineCol_before h₁ h₂, fun hb => ?_⟩
  rcases Nat.lt_trichotomy o₁ o₂ with h | rfl | h
  · exact h
  · exact absurd hb (Place.Before.irrefl _)
  · exact absurd (hb.trans (lineCol_before h₂ h₁ h)) (Place.Before.irrefl _)

/-! ## the lines of a prefix -/

namespace Begun

theorem nil : Begun [] [] [] := ⟨fun _ => rfl, rfl, List.suffix_rfl⟩

theorem lineFeed (h : Begun a done rev) : Begun (a ++ ['\n']) (done ++ [closeLine rev]) [] where
  cut b := by
    rw [List.append_assoc, h.cut, List.append_assoc]
    rfl
  place := by
    rw [placeAfter, List.foldl_append, ← placeAfter, h.place, List.length_append]
    rfl
  suffix := List.nil_suffix

theorem char (h : Begun a done rev) (hc : c ≠ '\n') : Begun (a ++ [c]) done (c :: rev) where
  cut b := by
    rw [List.append_assoc, h.cut, List.singleton_append, linesFrom_cons, if_neg hc]
  place := by
    rw [placeAfter, List.foldl_append, ← placeAfter, h.place]
    exact if_neg hc
  suffix := by
    obtain ⟨x, rfl⟩ := h.suffix
    exact ⟨x, by rw [List.reverse_cons, List.append_assoc]⟩

theorem step (h : Begun a done rev) (c : Char) : ∃ done' rev', Begun (a ++ [c]) done' rev' := by
  by_cases hc : c = '\n'
  · subst hc
    exact ⟨_, _, h.lineFeed⟩
  · exact ⟨_, _, h.char hc⟩

theorem append (h : Begun a done rev) (b : List Char) :
    ∃ done' rev', Begun (a ++ b) done' rev' := by
  induction b generalizing a done rev with
  | nil => exact ⟨done, rev, by rwa [List.append_nil]⟩
  | cons c b ih =>
    obtain ⟨done', rev', h'⟩ := h.step c
    have hall := ih h'
    rwa [List.append_assoc] at hall

end Begun

theorem exists_begun (a : List Char) : ∃ done rev, Begun a done rev := Begun.nil.append a

/-- every offset has the place behind a prefix, which is counted by its lines -/
theorem exists_begun_at (cs : List Char) (o : Nat) : ∃ a b done rev, cs = a ++ b ∧
    Begun a done rev ∧ lineCol cs o = ⟨done.length + 1, rev.length + 1⟩ ∧
    (b ≠ [] → o ≤ byteLength a) ∧ ∀ a' c, a = a' ++ [c] → byteLength a' < o := by
  obtain ⟨a, b, hcs, hp, hb, ha⟩ := exists_cut cs o
  obtain ⟨done, rev, h⟩ := exists_begun a
  exact ⟨a, b, done, rev, hcs, h, hp.trans h.place, hb, ha⟩

/-- a carriage return that is dropped at the end of a line is the last character that was read -/
theorem exists_line (h : rev ≠ [] ∨ b ≠ []) : ∃ line rest, linesFrom rev b = line :: rest ∧
    (rev.reverse <+: line ∨
      ∃ rev', rev = '\r' :: rev' ∧ b.head? = some '\n' ∧ line = rev'.reverse) := by
  induction b generalizing rev with
  | nil =>
    have hrev : rev ≠ [] := h.resolve_right fun hb => hb rfl
    rw [linesFrom_nil, if_neg (by rwa [List.isEmpty_iff])]
    exact ⟨rev.reverse, [], rfl, .inl List.prefix_rfl⟩
  | cons d b ih =>
    rw [linesFrom_cons]
    split
    · next hd =>
      subst hd
      refine ⟨closeLine rev, linesFrom [] b, rfl, ?_⟩
      unfold closeLine
      split
      · next rev' => exact .inr ⟨rev', rfl, rfl, rfl⟩
      · exact .inl List.prefix_rfl
    · obtain ⟨line, rest, hl, hline⟩ := ih (.inl (List.cons_ne_nil d rev))
      refine ⟨line, rest, hl, .inl ?_⟩
      rcases hline with hpre | ⟨rev', hrev', -, rfl⟩
      · rw [List.reverse_cons] at hpre
        exact (List.prefix_append ..).trans hpre
      · obtain ⟨-, rfl⟩ := List.cons.inj hrev'
        exact List.prefix_rfl

/-- a character in front of no line break stands in a line at its place -/
theorem Begun.holds (h : Begun a done rev) (hc : c ≠ '\n')
    (hr : ¬ (c = '\r' ∧ b.head? = some '\n')) :
    (placeAfter a).Holds (lines (a ++ c :: b)) c := by
  have hcut : lines (a ++ c :: b) = done ++ linesFrom (c :: rev) b := by
    rw [h.cut, linesFrom_cons, if_neg hc]
  obtain ⟨line, rest, hl, hline⟩ := exists_line (b := b) (.inl (List.cons_ne_nil c rev))
  rw [h.place, hcut, hl]
  refine ⟨done.length, rev.length, line, rfl, ?_, ?_⟩
  · rw [List.getElem?_append_right (Nat.le_refl _), Nat.sub_self]
    rfl
  · rcases hline with ⟨t, rfl⟩ | ⟨rev', hrev', hb, -⟩
    · rw [List.reverse_cons, List.append_assoc,
        List.getElem?_append_right (Nat.le_of_eq List.length_reverse), List.length_reverse,
        Nat.sub_self]
      rfl
    · exact absurd ⟨(List.cons.inj hrev').1, hb⟩ hr

/-- places are in the order of the offsets, and find every character in its line -/
theorem lineCol_embeds (s : String) :
    (∀ o₁ o₂, IsBoundary s o₁ → IsBoundary s o₂ →
      (o₁ < o₂ ↔ (lineCol s.toList o₁).Before (lineCol s.toList o₂))) ∧
    (∀ a c b, s.toList = a ++ c :: b → c ≠ '\n' → ¬ (c = '\r' ∧ b.head? = some '\n') →
      (lineCol s.toList (byteLength a)).Holds (lines s.toList) c) ∧
    ∀ o, byteLength s.toList ≤ o → lineCol s.toList o = lineCol s.toList (byteLength s.toList) := by
  refine ⟨fun o₁ o₂ h₁ h₂ => lineCol_before_iff h₁ h₂, fun a c b hs hc hr => ?_,
    fun o ho => lineCol_of_ge ho⟩
  obtain ⟨done, rev, h⟩ := exists_begun a
  rw [hs, lineCol_append]
  exact h.holds hc hr

/-- a carriage return counts as a character and is kept, unless a line feed follows it directly -/
theorem lineCol_embeds_returns :
    let s := "é\r\n\rz"
    (IsBoundary s 2 ∧ IsBoundary s 5 ∧ (lineCol s.toList 2).Before (lineCol s.toList 5)) ∧
    (s.toList = ['é', '\r', '\n'] ++ '\r' :: ['z'] ∧ '\r' ≠ '\n' ∧
      ¬ ('\r' = '\r' ∧ ['z'].head? = some '\n') ∧
      (lineCol s.toList 4).Holds (lines s.toList) '\r') ∧
    byteLength s.toList ≤ 9 ∧ lineCol s.toList 9 = lineCol s.toList (byteLength s.toList) := by
  intro s
  obtain ⟨horder, hchar, hend⟩ := lineCol_embeds s
  have h₂ : IsBoundary s 2 := ⟨['é'], ['\r', '\n', '\r', 'z'], by decide, by decide⟩
  have h₅ : IsBoundary s 5 := ⟨['é', '\r', '\n', '\r'], ['z'], by decide, by decide⟩
  have hs : s.toList = ['é', '\r', '\n'] ++ '\r' :: ['z'] := by decide
  have hn : byteLength s.toList ≤ 9 := by decide
  exact ⟨⟨h₂, h₅, (horder 2 5 h₂ h₅).1 (by decide)⟩,
    ⟨hs, by decide, by decide, hchar _ _ _ hs (by decide) (by decide)⟩, hn, hend 9 hn⟩

end ExprLang.Text
