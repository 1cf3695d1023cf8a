import ExprLang.Proofs.Outcome
import ExprLang.Token.Quoted

/-!
# Where a string literal ends

* `Quoted.Body cs`   the text `cs` stands between quotes: a quote in it has a backslash before it.

`bodyOf?_eq_some_iff` says that the reader stops at the first quote that closes such a text, whatever
follows.  Offsets are only used to report errors: `unescape_offset` moves a content that was read,
and `unescape_error` says that an error lies between two characters.
-/

namespace ExprLang.Quoted

inductive Body : List Char → Prop where
  | nil : Body []
  | escaped (c : Char) {cs : List Char} : Body cs → Body ('\\' :: c :: cs)
  | plain {c : Char} {cs : List Char} : c ≠ '"' → c ≠ '\\' → Body cs → Body (c :: cs)

theorem bodyOf?_plain {c : Char} (hq : c ≠ '"') (hb : c ≠ '\\') (cs : List Char) :
    bodyOf? (c :: cs) = (bodyOf? cs).map fun (body, rest) => (c :: body, rest) := by
  rw [bodyOf?]
  · exact hq
  · rintro d ds rfl _
    exact hb rfl

theorem Body.bodyOf? {cs : List Char} (h : Body cs) (rest : List Char) :
    bodyOf? (cs ++ '"' :: rest) = some (cs, rest) := by
  induction h with
  | nil => rw [List.nil_append, Quoted.bodyOf?]
  | escaped c _ ih =>
    rw [List.cons_append, List.cons_append, Quoted.bodyOf?, ih]
    rfl
  | plain hq hb _ ih =>
    rw [List.cons_append, bodyOf?_plain hq hb, ih]
    rfl

theorem bodyOf?_eq_some_iff {cs body rest : List Char} :
    bodyOf? cs = some (body, rest) ↔ Body body ∧ cs = body ++ '"' :: rest := by
  constructor
  · intro h
    fun_induction bodyOf? cs generalizing body rest with
    | case1 => cases h
    | case2 =>
      cases h
      exact ⟨.nil, rfl⟩
    | case3 c cs ih =>
      obtain ⟨⟨b, r⟩, hb, he⟩ := Option.map_eq_some_iff.1 h
      cases he
      obtain ⟨hbody, rfl⟩ := ih hb
      exact ⟨.escaped c hbody, rfl⟩
    | case4 c cs hq hne ih =>
      obtain ⟨⟨b, r⟩, hb, he⟩ := Option.map_eq_some_iff.1 h
      cases he
      obtain ⟨hbody, rfl⟩ := ih hb
      -- a backslash here would be the last character, but a quote still follows
      have hbs : c ≠ '\\' := by
        rintro rfl
        cases hd : b ++ '"' :: rest with
        | nil => simp at hd
        | cons d ds => exact hne d ds rfl hd
      exact ⟨.plain hq hbs hbody, rfl⟩
  · rintro ⟨hbody, rfl⟩
    exact hbody.bodyOf? rest

/-! ## offsets -/

theorem unescape_offset {o o' : Nat} {cs content : List Char} (h : unescape o cs = .ok content) :
    unescape o' cs = .ok content := by
  fun_induction unescape o cs generalizing o' content with
  | case1 o =>
    rw [unescape]
    exact h
  | case2 o => cases h
  | case3 o c rest d taken he ih =>
    obtain ⟨more, hm, rfl⟩ := map_eq_ok.1 h
    rw [unescape, he]
    exact map_eq_ok.2 ⟨more, ih hm, rfl⟩
  | case4 o c rest sequence he => cases h
  | case5 o c rest h1 h2 ih =>
    obtain ⟨more, hm, rfl⟩ := map_eq_ok.1 h
    rw [unescape.eq_4 _ _ _ h1 h2]
    exact map_eq_ok.2 ⟨more, ih hm, rfl⟩

theorem unescape_error {o : Nat} {cs : List Char} {e : LexError} (h : unescape o cs = .error e) :
    ∃ a b, cs = a ++ b ∧ e.position = o + Text.byteLength a := by
  fun_induction unescape o cs with
  | case1 => cases h
  | case2 o =>
    cases h
    exact ⟨[], _, rfl, rfl⟩
  | case3 o c rest d taken he ih =>
    obtain ⟨a, b, hab, hp⟩ := ih (map_eq_error.1 h)
    refine ⟨'\\' :: c :: (rest.take taken ++ a), b, ?_, ?_⟩
    · rw [List.cons_append, List.cons_append, List.append_assoc, ← hab, List.take_append_drop]
    · have hb : ('\\').utf8Size = 1 := rfl
      rw [hp, Text.byteLength_cons, Text.byteLength_cons, Text.byteLength_append, hb]
      omega
  | case4 o c rest sequence he =>
    cases h
    exact ⟨[], _, rfl, rfl⟩
  | case5 o c rest h1 h2 ih =>
    obtain ⟨a, b, rfl, hp⟩ := ih (map_eq_error.1 h)
    refine ⟨c :: a, b, rfl, ?_⟩
    rw [hp, Text.byteLength_cons]
    omega

/-! ## literals -/

theorem read_eq_ok {o : Nat} {cs content body : List Char} :
    read o cs = .ok (content, body) ↔
      Body body ∧ (∃ rest, cs = body ++ '"' :: rest) ∧ unescape 0 body = .ok content := by
  rw [read]
  cases hb : bodyOf? cs with
  | none =>
    refine ⟨nofun, ?_⟩
    intro h
    obtain ⟨hbody, ⟨rest, rfl⟩, -⟩ := h
    rw [hbody.bodyOf?] at hb
    cases hb
  | some p =>
    obtain ⟨b, rest⟩ := p
    have hb' := bodyOf?_eq_some_iff.1 hb
    constructor
    · intro h
      obtain ⟨content', hc, he⟩ := map_eq_ok.1 h
      cases he
      exact ⟨hb'.1, ⟨rest, hb'.2⟩, unescape_offset hc⟩
    · intro h
      obtain ⟨hbody, ⟨rest', rfl⟩, hc⟩ := h
      rw [hbody.bodyOf?] at hb
      cases hb
      exact map_eq_ok.2 ⟨content, unescape_offset hc, rfl⟩

theorem read_error {o : Nat} {cs : List Char} {e : LexError} (h : read o cs = .error e) :
    ∃ a b, '"' :: cs = a ++ b ∧ e.position = o + Text.byteLength a := by
  rw [read] at h
  split at h
  · cases h
    exact ⟨[], _, rfl, rfl⟩
  · next body rest hb =>
    obtain ⟨a, b, rfl, hp⟩ := unescape_error (map_eq_error.1 h)
    obtain ⟨-, rfl⟩ := bodyOf?_eq_some_iff.1 hb
    have hq : ('"').utf8Size = 1 := rfl
    refine ⟨'"' :: a, b ++ '"' :: rest, by simp, ?_⟩
    rw [hp, Text.byteLength_cons, hq, Nat.add_assoc]

/-- a literal is read whatever comes behind it -/
theorem read_prefix {o o' : Nat} {a b content body : List Char}
    (h : read o (a ++ b) = .ok (content, body)) (hl : body.length + 1 ≤ a.length) :
    read o' a = .ok (content, body) := by
  obtain ⟨hbody, ⟨rest, hr⟩, hc⟩ := read_eq_ok.1 h
  have hp : body ++ ['"'] <+: a := by
    refine List.prefix_of_prefix_length_le ?_ (List.prefix_append a b) (by simpa using hl)
    rw [hr]
    exact ⟨rest, by simp⟩
  obtain ⟨r, rfl⟩ := hp
  exact read_eq_ok.2 ⟨hbody, ⟨r, by simp⟩, hc⟩

/-- no longer text is a literal too -/
theorem read_unique {o o' : Nat} {a b content content' body body' : List Char}
    (h : read o (a ++ b) = .ok (content, body)) (h' : read o' a = .ok (content', body')) :
    body' = body := by
  obtain ⟨hbody, ⟨rest, hr⟩, -⟩ := read_eq_ok.1 h
  obtain ⟨hbody', ⟨rest', rfl⟩, -⟩ := read_eq_ok.1 h'
  have h1 := hbody.bodyOf? rest
  rw [← hr, List.append_assoc, List.cons_append, hbody'.bodyOf?] at h1
  cases h1
  rfl

end ExprLang.Quoted
