import ExprLang.Proofs.Token.Quoted

/-!
# What a string literal stands for

* `shortEscapes`          the letters that are an escape behind a backslash, with their characters;
* `HexDigit c v`          the character is an ASCII hexadecimal digit of the value `v`;
* `Escape e d`            behind a backslash, `e` is an escape of the character `d`;
* `Pieces cs content`     the text `cs` is plain characters and escapes, and stands for `content`;
* `BadEscape body good`   behind the pieces `good`, the next backslash of `body` starts no escape.

The scanner pairs a backslash with the one character behind it, while an escape may take four more.
They agree on where a literal ends because none of the four is a quote or a backslash
(`Escape.body_iff`).  A body is either made of pieces, or the first escape that is none is its error:
`Pieces.unescape`, `BadEscape.unescape` and `unescape_cases`.
-/

namespace ExprLang

open Text

namespace Quoted

def shortEscapes : List (Char × Char) :=
  [('"', '"'), ('\\', '\\'), ('\'', '\''), ('/', '/'), ('n', '\n'), ('r', '\r'), ('t', '\t'),
    ('0', '\x00')]

def HexDigit (c : Char) (v : Nat) : Prop :=
  "0123456789abcdef".toList[v]? = some c ∨ "0123456789ABCDEF".toList[v]? = some c

instance (c : Char) (v : Nat) : Decidable (HexDigit c v) := inferInstanceAs (Decidable (_ ∨ _))

inductive Escape : List Char → Char → Prop where
  | short {c d : Char} : (c, d) ∈ shortEscapes → Escape [c] d
  | unicode {a b c d e : Char} {i j k l : Nat} : HexDigit a i → HexDigit b j → HexDigit c k →
      HexDigit d l → e.toNat = 4096 * i + 256 * j + 16 * k + l → Escape ['u', a, b, c, d] e

inductive Pieces : List Char → List Char → Prop where
  | nil : Pieces [] []
  | plain {c : Char} {cs content : List Char} : c ≠ '"' → c ≠ '\\' → Pieces cs content →
      Pieces (c :: cs) (c :: content)
  | escape {e cs content : List Char} {d : Char} : Escape e d → Pieces cs content →
      Pieces ('\\' :: (e ++ cs)) (d :: content)

def BadEscape (body good : List Char) : Prop :=
  ∃ content bad, body = good ++ '\\' :: bad ∧ Pieces good content ∧
    ∀ e d more, Escape e d → bad ≠ e ++ more

/-! ## escapes -/

theorem HexDigit.lt {c : Char} {v : Nat} (h : HexDigit c v) : v < 16 := by
  rcases h with h | h
  · exact (List.getElem?_eq_some_iff.1 h).1
  · exact (List.getElem?_eq_some_iff.1 h).1

/-- the digits from the place `p` on are `count` characters in a row, and `c` is one of them -/
theorem getElem?_of_run {digits : List Char} {c : Char} (first p count : Nat)
    (run : ∀ n < count, digits[n + p]? = some (Char.ofNat (n + first))) (h1 : first ≤ c.toNat)
    (h2 : c.toNat < first + count) : digits[c.toNat - first + p]? = some c := by
  rw [run (c.toNat - first) (by omega), Nat.sub_add_cancel h1, Char.ofNat_toNat]

theorem hexVal?_eq_some {c : Char} {v : Nat} : hexVal? c = some v ↔ HexDigit c v := by
  constructor
  · intro h
    rw [hexVal?] at h
    split at h
    · next hc =>
      cases h
      exact .inl (getElem?_of_run 48 0 10 (by decide) hc.1 (Nat.lt_succ_of_le hc.2))
    · split at h
      · next hc =>
        cases h
        have hv : c.toNat - 87 = c.toNat - 97 + 10 := by
          have h1 : 97 ≤ c.toNat := hc.1
          omega
        rw [hv]
        exact .inl (getElem?_of_run 97 10 6 (by decide) hc.1 (Nat.lt_succ_of_le hc.2))
      · split at h
        · next hc =>
          cases h
          have hv : c.toNat - 55 = c.toNat - 65 + 10 := by
            have h1 : 65 ≤ c.toNat := hc.1
            omega
          rw [hv]
          exact .inr (getElem?_of_run 65 10 6 (by decide) hc.1 (Nat.lt_succ_of_le hc.2))
        · cases h
  · intro h
    have all : ∀ n < 16, ("0123456789abcdef".toList[n]?.bind hexVal? = some n) ∧
        "0123456789ABCDEF".toList[n]?.bind hexVal? = some n := by decide
    obtain ⟨hlower, hupper⟩ := all v h.lt
    rcases h with h | h
    · rwa [h] at hlower
    · rwa [h] at hupper

/-- a hexadecimal digit closes nothing and escapes nothing -/
theorem HexDigit.ne {c : Char} {v : Nat} (h : HexDigit c v) : c ≠ '"' ∧ c ≠ '\\' := by
  have h := hexVal?_eq_some.2 h
  constructor
  · rintro rfl
    cases h
  · rintro rfl
    cases h

theorem toNat_ofNat_of_valid {n : Nat} (h : n.isValidChar) : (Char.ofNat n).toNat = n := by
  rw [Char.ofNat, dif_pos h]
  rfl

theorem hexChar?_eq_some {cs : List Char} {e : Char} : hexChar? cs = some e ↔
    ∃ a b c d i j k l, cs = [a, b, c, d] ∧ HexDigit a i ∧ HexDigit b j ∧ HexDigit c k ∧
      HexDigit d l ∧ e.toNat = 4096 * i + 256 * j + 16 * k + l := by
  constructor
  · intro h
    rw [hexChar?] at h
    split at h
    · next hl =>
      obtain ⟨a, b, c, d, rfl⟩ : ∃ a b c d, cs = [a, b, c, d] := by
        match cs, hl with
        | [a, b, c, d], _ => exact ⟨a, b, c, d, rfl⟩
      obtain ⟨vs, hvs, h⟩ := Option.bind_eq_some_iff.1 h
      dsimp only at h
      split at h
      · next hv =>
        cases h
        simp only [List.mapM_cons, List.mapM_nil, Option.bind_eq_bind, Option.pure_def,
          Option.bind_eq_some_iff, Option.some.injEq] at hvs
        obtain ⟨i, hi, _, ⟨j, hj, _, ⟨k, hk, _, ⟨l, hl, _, rfl, rfl⟩, rfl⟩, rfl⟩, rfl⟩ := hvs
        refine ⟨a, b, c, d, i, j, k, l, rfl, hexVal?_eq_some.1 hi, hexVal?_eq_some.1 hj,
          hexVal?_eq_some.1 hk, hexVal?_eq_some.1 hl, ?_⟩
        rw [toNat_ofNat_of_valid hv]
        show 16 * (16 * (16 * (16 * 0 + i) + j) + k) + l = _
        omega
      · cases h
    · cases h
  · rintro ⟨a, b, c, d, i, j, k, l, rfl, hi, hj, hk, hl, he⟩
    have hn : 16 * (16 * (16 * (16 * 0 + i) + j) + k) + l = e.toNat := by omega
    have hm : [a, b, c, d].mapM hexVal? = some [i, j, k, l] := by
      simp [List.mapM_cons, hexVal?_eq_some.2 hi, hexVal?_eq_some.2 hj, hexVal?_eq_some.2 hk,
        hexVal?_eq_some.2 hl]
    rw [hexChar?, if_pos (show [a, b, c, d].length = 4 from rfl), hm]
    show (if Nat.isValidChar (16 * (16 * (16 * (16 * 0 + i) + j) + k) + l) then
      some (Char.ofNat (16 * (16 * (16 * (16 * 0 + i) + j) + k) + l)) else none) = some e
    have hv : e.toNat.isValidChar := e.valid
    rw [hn, if_pos hv, Char.ofNat_toNat]

theorem simpleEscape?_eq_some {c d : Char} :
    simpleEscape? c = some d ↔ (c, d) ∈ shortEscapes := by
  constructor
  · intro h
    unfold simpleEscape? at h
    split at h <;> cases h <;> decide
  · intro h
    have all : ∀ s ∈ shortEscapes, simpleEscape? s.1 = some s.2 := by decide
    exact all _ h

theorem taken_eq_ok {x : Option Char} {d : Char} {taken n : Nat} {sequence : List Char} :
    (match x with
      | some d => Except.ok (d, taken)
      | none => .error sequence) = .ok (d, n) ↔ x = some d ∧ n = taken := by
  cases x with
  | none => exact ⟨nofun, nofun⟩
  | some y =>
    constructor
    · intro h
      cases h
      exact ⟨rfl, rfl⟩
    · intro h0
      obtain ⟨h, rfl⟩ := h0
      cases h
      rfl

theorem escape_unicode {cs : List Char} {d : Char} {n : Nat} :
    escape 'u' cs = .ok (d, n) ↔ hexChar? (cs.take 4) = some d ∧ n = 4 := by
  rw [escape, if_pos rfl]
  exact taken_eq_ok

theorem escape_short {c d : Char} {cs : List Char} {n : Nat} (hc : c ≠ 'u') :
    escape c cs = .ok (d, n) ↔ (c, d) ∈ shortEscapes ∧ n = 0 := by
  rw [escape, if_neg hc, ← simpleEscape?_eq_some]
  exact taken_eq_ok

/-- an escape is read, whatever follows -/
theorem escape_eq_ok {c d : Char} {cs : List Char} {n : Nat} : escape c cs = .ok (d, n) ↔
    ∃ e more, cs = e ++ more ∧ Escape (c :: e) d ∧ e.length = n := by
  constructor
  · intro h
    by_cases hc : c = 'u'
    · subst hc
      obtain ⟨hx, rfl⟩ := escape_unicode.1 h
      obtain ⟨a, b, c, e, i, j, k, l, ht, hi, hj, hk, hl, hv⟩ := hexChar?_eq_some.1 hx
      refine ⟨[a, b, c, e], cs.drop 4, ?_, .unicode hi hj hk hl hv, rfl⟩
      rw [← ht, List.take_append_drop]
    · obtain ⟨hs, rfl⟩ := (escape_short hc).1 h
      exact ⟨[], cs, rfl, .short hs, rfl⟩
  · intro h0
    obtain ⟨e, more, rfl, he, rfl⟩ := h0
    cases he with
    | short hs =>
      have all : ∀ s ∈ shortEscapes, s.1 ≠ 'u' := by decide
      exact (escape_short (all _ hs)).2 ⟨hs, rfl⟩
    | @unicode a b c e _ i j k l hi hj hk hl hv =>
      exact escape_unicode.2
        ⟨hexChar?_eq_some.2 ⟨a, b, c, e, i, j, k, l, rfl, hi, hj, hk, hl, hv⟩, rfl⟩

/-- the other characters behind a backslash are reported -/
theorem escape_isOk_eq_false {c : Char} {cs : List Char} : (escape c cs).isOk = false ↔
    ∀ e d more, Escape e d → c :: cs ≠ e ++ more := by
  constructor
  · intro h e d more hesc heq
    cases e with
    | nil => cases hesc
    | cons c' e =>
      obtain ⟨rfl, hcs⟩ := List.cons.inj heq
      rw [escape_eq_ok.2 ⟨e, more, hcs, hesc, rfl⟩] at h
      cases h
  · intro h
    cases he : escape c cs with
    | error sequence => rfl
    | ok r =>
      obtain ⟨e, more, rfl, hesc, -⟩ := escape_eq_ok.1 he
      exact absurd rfl (h (c :: e) r.1 more hesc)

theorem escape_error {c : Char} {cs sequence : List Char} (h : escape c cs = .error sequence) :
    sequence ≠ [] := by
  rw [escape] at h
  split at h
  · split at h
    · cases h
    · cases h
      exact nofun
  · split at h
    · cases h
    · cases h
      exact nofun

/-! ## contents -/

/-- an escape neither closes a literal nor hides its end -/
theorem Escape.body_iff {e cs : List Char} {d : Char} (h : Escape e d) :
    Body ('\\' :: (e ++ cs)) ↔ Body cs := by
  constructor
  · intro hb
    cases h with
    | short =>
      cases hb with
      | escaped _ hb => exact hb
      | plain _ hne => exact absurd rfl hne
    | unicode hi hj hk hl =>
      have tail {c : Char} {v : Nat} {cs : List Char} (hc : HexDigit c v) (hb : Body (c :: cs)) :
          Body cs := by
        cases hb with
        | escaped => exact absurd rfl hc.ne.2
        | plain _ _ hb => exact hb
      cases hb with
      | escaped _ hb => exact tail hl (tail hk (tail hj (tail hi hb)))
      | plain _ hne => exact absurd rfl hne
  · intro hb
    cases h with
    | short => exact .escaped _ hb
    | unicode hi hj hk hl =>
      exact .escaped _ (.plain hi.ne.1 hi.ne.2 (.plain hj.ne.1 hj.ne.2
        (.plain hk.ne.1 hk.ne.2 (.plain hl.ne.1 hl.ne.2 hb))))

theorem Pieces.body {cs content : List Char} (h : Pieces cs content) : Body cs := by
  induction h with
  | nil => exact .nil
  | plain hq hb _ ih => exact .plain hq hb ih
  | escape he _ ih => exact he.body_iff.2 ih

/-- every text is the content of a literal -/
theorem exists_pieces (content : List Char) : ∃ cs, Pieces cs content := by
  induction content with
  | nil => exact ⟨[], .nil⟩
  | cons c content ih =>
    obtain ⟨cs, h⟩ := ih
    by_cases hq : c = '"'
    · have he : Escape ['"'] c := .short (by rw [hq]; decide)
      exact ⟨_, .escape he h⟩
    · by_cases hb : c = '\\'
      · have he : Escape ['\\'] c := .short (by rw [hb]; decide)
        exact ⟨_, .escape he h⟩
      · exact ⟨_, .plain hq hb h⟩

theorem BadEscape.escape {e rest good : List Char} {d : Char} (h : BadEscape rest good)
    (he : Escape e d) : BadEscape ('\\' :: (e ++ rest)) ('\\' :: (e ++ good)) := by
  obtain ⟨content, bad, rfl, hp, hno⟩ := h
  exact ⟨d :: content, bad, by simp, .escape he hp, hno⟩

theorem BadEscape.plain {c : Char} {rest good : List Char} (h : BadEscape rest good) (hq : c ≠ '"')
    (hb : c ≠ '\\') : BadEscape (c :: rest) (c :: good) := by
  obtain ⟨content, bad, rfl, hp, hno⟩ := h
  exact ⟨c :: content, bad, rfl, .plain hq hb hp, hno⟩

/-- the error of a body that is not made of pieces lies at the first backslash that starts no escape,
and the content is that of the pieces otherwise -/
theorem unescape_cases {o : Nat} {body : List Char} (hb : Body body) :
    (∃ content, unescape o body = .ok content ∧ Pieces body content) ∨
      ∃ good sequence, unescape o body = .error ⟨o + byteLength good, .invalidEscape sequence⟩ ∧
        BadEscape body good ∧ sequence ≠ "" := by
  fun_induction unescape o body with
  | case1 o => exact .inl ⟨[], rfl, .nil⟩
  | case2 o =>
    cases hb with
    | plain _ hne => exact absurd rfl hne
  | case3 o c rest d taken he ih =>
    obtain ⟨e, more, rfl, hesc, rfl⟩ := escape_eq_ok.1 he
    rw [List.take_left, List.drop_left] at ih ⊢
    rcases ih (hesc.body_iff.1 hb) with ⟨content, hc, hp⟩ | ⟨good, sequence, hg, hbad, hs⟩
    · exact .inl ⟨d :: content, by rw [hc]; rfl, .escape hesc hp⟩
    · refine .inr ⟨'\\' :: (c :: e ++ good), sequence, ?_, hbad.escape hesc, hs⟩
      have hlen : o + 1 + c.utf8Size + byteLength e + byteLength good =
          o + byteLength ('\\' :: (c :: e ++ good)) := by
        have hbs : ('\\').utf8Size = 1 := rfl
        rw [byteLength_cons, byteLength_append, byteLength_cons, hbs]
        omega
      rw [hg, ← hlen]
      rfl
  | case4 o c rest sequence he =>
    have hno := escape_isOk_eq_false.1 (congrArg Except.isOk he)
    refine .inr ⟨[], String.ofList sequence, rfl, ⟨[], c :: rest, rfl, .nil, hno⟩, fun hs => ?_⟩
    exact escape_error he (by simpa using congrArg String.toList hs)
  | case5 o c rest h1 h2 ih =>
    have hbs : c ≠ '\\' := by
      rintro rfl
      cases rest with
      | nil => exact h1 rfl rfl
      | cons d ds => exact h2 d ds rfl rfl
    cases hb with
    | escaped => exact absurd rfl hbs
    | plain hq _ hb =>
      rcases ih hb with ⟨content, hc, hp⟩ | ⟨good, sequence, hg, hbad, hs⟩
      · exact .inl ⟨c :: content, by rw [hc]; rfl, .plain hq hbs hp⟩
      · refine .inr ⟨c :: good, sequence, ?_, hbad.plain hq hbs, hs⟩
        rw [hg, byteLength_cons, Nat.add_assoc]
        rfl

/-- pieces are resolved whatever follows them -/
theorem Pieces.unescape_append {cs content : List Char} (h : Pieces cs content) (o : Nat)
    (more : List Char) : unescape o (cs ++ more) =
      (unescape (o + byteLength cs) more).map (content ++ ·) := by
  induction h generalizing o with
  | nil =>
    show unescape o more = (unescape o more).map ([] ++ ·)
    cases unescape o more <;> rfl
  | @plain c cs content _ hb _ ih =>
    rw [List.cons_append, unescape.eq_4 _ _ _ (fun h => absurd h hb) (fun _ _ h => absurd h hb), ih,
      byteLength_cons, ← Nat.add_assoc]
    cases unescape (o + c.utf8Size + byteLength cs) more <;> rfl
  | @escape e cs content d he _ ih =>
    obtain ⟨c, e, rfl⟩ : ∃ c e', e = c :: e' := by
      cases he <;> exact ⟨_, _, rfl⟩
    have hesc : Quoted.escape c (e ++ (cs ++ more)) = .ok (d, e.length) :=
      escape_eq_ok.2 ⟨e, cs ++ more, rfl, he, rfl⟩
    have hlen : o + 1 + c.utf8Size + byteLength e + byteLength cs =
        o + byteLength ('\\' :: c :: (e ++ cs)) := by
      have hbs : ('\\').utf8Size = 1 := rfl
      rw [byteLength_cons, byteLength_cons, byteLength_append, hbs]
      omega
    rw [List.cons_append, List.cons_append, List.cons_append, List.append_assoc, unescape, hesc]
    dsimp only
    rw [List.take_left, List.drop_left, ih, hlen]
    cases unescape (o + byteLength ('\\' :: c :: (e ++ cs))) more <;> rfl

theorem Pieces.unescape {cs content : List Char} (h : Pieces cs content) (o : Nat) :
    Quoted.unescape o cs = .ok content := by
  have h := h.unescape_append o []
  rw [List.append_nil, Quoted.unescape] at h
  rw [h]
  exact congrArg Except.ok (List.append_nil content)

theorem BadEscape.unescape {body good : List Char} (h : BadEscape body good) (o : Nat) :
    ∃ sequence, Quoted.unescape o body =
      .error ⟨o + byteLength good, .invalidEscape sequence⟩ := by
  obtain ⟨content, bad, rfl, hp, hno⟩ := h
  rw [hp.unescape_append]
  cases bad with
  | nil =>
    rw [Quoted.unescape]
    exact ⟨_, rfl⟩
  | cons c bad =>
    have hok := escape_isOk_eq_false.2 hno
    rw [Quoted.unescape]
    cases he : Quoted.escape c bad with
    | ok r =>
      rw [he] at hok
      cases hok
    | error sequence => exact ⟨_, rfl⟩

end Quoted

end ExprLang
