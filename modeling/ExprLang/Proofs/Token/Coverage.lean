import ExprLang.Proofs.Token.Scanning

/-!
# The tokens of a text cover it

* `IsBoundary s n`        a byte offset between two characters of the text, or at one of its ends;
* `IsToken single s k`    the text as a whole is one token of the kind `k`;
* `Covering single s ts`  the tokens stand in the text one behind the other, with only blanks between
                          them, each one a token on its own and as long as possible;
* `Fails single s e`      what stands in front of some place is cut into tokens, and the token there
                          has the error `e`.

`tokenize_covers`: one of the two comes out for every text whose offsets fit into a span.
-/

namespace ExprLang

open Text

def IsBoundary (s : String) (n : Nat) : Prop := ∃ a b, s.toList = a ++ b ∧ byteLength a = n

def IsToken (single : Bool) (s : String) (k : TokenKind) : Prop :=
  tokenize single s =
    .ok [⟨k, .ofOffsets 0 (byteLength s.toList)⟩, endToken (byteLength s.toList)]

structure Covering (single : Bool) (s : String) (ts : List Token) : Prop where
  boundary : ∀ t ∈ ts, IsBoundary s t.span.start.toNat ∧ IsBoundary s t.span.stop.toNat
  nonempty : ∀ t ∈ ts, t.span.start < t.span.stop
  ordered : ts.Pairwise fun t u => t.span.stop ≤ u.span.start
  blank : ∀ a c b, s.toList = a ++ c :: b → isBlank c = true ∨
    ∃ t ∈ ts, t.span.start.toNat ≤ byteLength a ∧ byteLength a < t.span.stop.toNat
  alone : ∀ t ∈ ts, IsToken single (t.span.slice s) t.kind
  longest : ∀ t ∈ ts, ∀ a w b, s.toList = a ++ w ++ b → byteLength a = t.span.start.toNat →
    t.span.stop.toNat < byteLength a + byteLength w → ∀ k, ¬ IsToken single (String.ofList w) k

structure Fails (single : Bool) (s : String) (e : LexError) : Prop where
  boundary : IsBoundary s e.position
  inside : e.position ≤ byteLength s.toList
  start : ∃ a c b us, s.toList = a ++ c :: b ∧ isBlank c = false ∧
    lexeme single (byteLength a) c b = .error e ∧ byteLength a ≤ e.position ∧
    tokenize single (String.ofList a) = .ok (us ++ [endToken (byteLength a)])

/-! ## offsets -/

theorem byteLength_cons_pos (c : Char) (cs : List Char) : 0 < byteLength (c :: cs) :=
  Nat.add_pos_left c.utf8Size_pos _

theorem byteLength_eq_zero {cs : List Char} (h : byteLength cs = 0) : cs = [] := by
  cases cs with
  | nil => rfl
  | cons c cs => exact absurd h (Nat.ne_of_gt (byteLength_cons_pos c cs))

/-- texts of the same bytes at the same place are the same -/
theorem append_cancel_bytes {a a' b b' : List Char} (h : a ++ b = a' ++ b')
    (hn : byteLength a = byteLength a') : a = a' ∧ b = b' := by
  have hb : some b = some b' := by
    rw [← dropBytes_byteLength a b, h, hn, dropBytes_byteLength]
  cases hb
  exact ⟨List.append_cancel_right h, rfl⟩

/-! ## where the tokens stand -/

variable {single : Bool} {o : Nat} {cs rest : List Char} {ts : List Token} {t : Token}

namespace Scanned

theorem mem (h : Scanned single o cs ts rest) (ht : t ∈ ts) :
    ∃ a c w b, cs = a ++ (c :: w ++ b) ∧ isBlank c = false ∧
      t.span = .ofOffsets (o + byteLength a) (o + byteLength a + byteLength (c :: w)) ∧
      lexeme single (o + byteLength a) c (w ++ (b ++ rest)) = .ok (t.kind, w.length) := by
  induction h with
  | nil => cases ht
  | @blank o d cs ts rest _ _ ih =>
    obtain ⟨a, c, w, b, rfl, hc, hspan, hl⟩ := ih ht
    rw [Nat.add_assoc o, ← byteLength_cons] at hspan hl
    exact ⟨d :: a, c, w, b, rfl, hc, hspan, hl⟩
  | @token o d v cs k ts rest hb hv _ ih =>
    rcases List.mem_cons.1 ht with rfl | ht
    · exact ⟨[], d, v, cs, rfl, hb, rfl, hv⟩
    · obtain ⟨a, c, w, b, rfl, hc, hspan, hl⟩ := ih ht
      rw [Nat.add_assoc o, ← byteLength_append] at hspan hl
      exact ⟨d :: v ++ a, c, w, b, (List.append_assoc ..).symm, hc, hspan, hl⟩

theorem start_le (h : Scanned single o cs ts rest) (hn : o + byteLength cs < 4294967296)
    (ht : t ∈ ts) : o ≤ t.span.start.toNat := by
  obtain ⟨a, c, w, b, rfl, -, hspan, -⟩ := h.mem ht
  rw [byteLength_append] at hn
  rw [hspan, Span.ofOffsets_start (by omega)]
  exact Nat.le_add_right ..

theorem ordered (h : Scanned single o cs ts rest) (hn : o + byteLength cs < 4294967296) :
    ts.Pairwise fun t u => t.span.stop ≤ u.span.start := by
  induction h with
  | nil => exact .nil
  | blank _ _ ih =>
    rw [byteLength_cons, ← Nat.add_assoc] at hn
    exact ih hn
  | @token o c w cs k ts rest _ _ hs ih =>
    rw [byteLength_append, ← Nat.add_assoc] at hn
    refine .cons (fun u hu => ?_) (ih hn)
    rw [UInt32.le_iff_toNat_le]
    show (Span.ofOffsets o (o + byteLength (c :: w))).stop.toNat ≤ u.span.start.toNat
    rw [Span.ofOffsets_stop (by omega)]
    exact hs.start_le hn hu

/-- a character that is in no token is a blank -/
theorem blank_or_mem (h : Scanned single o cs ts rest) (hn : o + byteLength cs < 4294967296)
    {a b : List Char} {d : Char} (hd : cs = a ++ d :: b) : isBlank d = true ∨
      ∃ t ∈ ts, t.span.start.toNat ≤ o + byteLength a ∧
        o + byteLength a < t.span.stop.toNat := by
  induction h generalizing a with
  | nil => simp at hd
  | @blank o c cs ts rest hb hs ih =>
    cases a with
    | nil =>
      cases hd
      exact .inl hb
    | cons e a =>
      obtain ⟨rfl, htail⟩ := List.cons.inj hd
      rw [byteLength_cons, ← Nat.add_assoc] at hn ⊢
      exact ih hn htail
  | @token o c w cs k ts rest hb hl hs ih =>
    rw [byteLength_append, ← Nat.add_assoc] at hn
    have hstart := Span.ofOffsets_start (i := o) (j := o + byteLength (c :: w)) (by omega)
    have hstop := Span.ofOffsets_stop (i := o) (j := o + byteLength (c :: w)) (by omega)
    -- the character stands in the token or behind it
    rcases List.append_eq_append_iff.1 hd with ⟨a', rfl, hcs⟩ | ⟨b', hw, hb'⟩
    · rw [byteLength_append, ← Nat.add_assoc]
      rcases ih hn hcs with hd | ⟨t, ht, hle, hlt⟩
      · exact .inl hd
      · exact .inr ⟨t, List.mem_cons_of_mem _ ht, hle, hlt⟩
    · cases b' with
      | nil =>
        rw [List.append_nil] at hw
        rw [← hw]
        rcases ih (a := []) hn hb'.symm with hd | ⟨t, ht, hle, hlt⟩
        · exact .inl hd
        · exact .inr ⟨t, List.mem_cons_of_mem _ ht, hle, hlt⟩
      | cons e b' =>
        refine .inr ⟨_, List.mem_cons_self .., ?_, ?_⟩
        · show (Span.ofOffsets o (o + byteLength (c :: w))).start.toNat ≤ _
          rw [hstart]
          exact Nat.le_add_right ..
        · show _ < (Span.ofOffsets o (o + byteLength (c :: w))).stop.toNat
          rw [hstop, hw, byteLength_append]
          have := byteLength_cons_pos e b'
          omega

end Scanned

/-! ## a text that is one token -/

theorem isToken_iff {k : TokenKind} (hn : byteLength cs < 4294967296) :
    IsToken single (String.ofList cs) k ↔
      ∃ c w, cs = c :: w ∧ isBlank c = false ∧ lexeme single 0 c w = .ok (k, w.length) := by
  rw [IsToken, tokenize, String.toList_ofList]
  constructor
  · intro h
    obtain ⟨us, hus, hs⟩ := scanned_of_ok h
    have hus : [⟨k, .ofOffsets 0 (byteLength cs)⟩] ++ [endToken (byteLength cs)] =
        us ++ [endToken (0 + byteLength cs)] := hus
    obtain ⟨rfl, -⟩ := List.append_inj' hus rfl
    obtain ⟨a, c, w, b, rfl, hc, hspan, hl⟩ := hs.mem (List.mem_singleton_self _)
    -- the span starts and ends where the text does, so that nothing stands around the token
    rw [byteLength_append, byteLength_append] at hn hspan
    rw [Nat.zero_add] at hspan
    have hstart := congrArg (fun s => s.start.toNat) hspan
    have hstop := congrArg (fun s => s.stop.toNat) hspan
    simp only [Span.ofOffsets_start (i := 0) (by omega),
      Span.ofOffsets_start (i := byteLength a) (by omega)] at hstart
    simp only [Span.ofOffsets_stop (j := byteLength a + (byteLength (c :: w) + byteLength b)) hn,
      Span.ofOffsets_stop (j := byteLength a + byteLength (c :: w)) (by omega)] at hstop
    obtain rfl := byteLength_eq_zero hstart.symm
    have hb : byteLength b = 0 := by omega
    obtain rfl := byteLength_eq_zero hb
    simp only [List.append_nil] at hl
    exact ⟨c, w, by simp, hc, hl⟩
  · intro h
    obtain ⟨c, w, rfl, hc, hl⟩ := h
    have hs : Scanned single 0 (c :: w ++ []) [⟨k, .ofOffsets 0 (0 + byteLength (c :: w))⟩] [] :=
      .token hc (by rwa [List.append_nil, List.append_nil]) .nil
    rw [List.append_nil, Nat.zero_add] at hs
    have h := hs.ok
    rw [Nat.zero_add] at h
    exact h

/-! ## the two outcomes -/

namespace Scanned

variable {s : String}

/-- a token of a text, what stands around it, and its offsets -/
theorem place (h : Scanned single 0 s.toList ts []) (hn : byteLength s.toList < 4294967296)
    (ht : t ∈ ts) : ∃ a c w b, s.toList = a ++ (c :: w ++ b) ∧ isBlank c = false ∧
      t.span.start.toNat = byteLength a ∧
      t.span.stop.toNat = byteLength a + byteLength (c :: w) ∧
      lexeme single (byteLength a) c (w ++ b) = .ok (t.kind, w.length) := by
  obtain ⟨a, c, w, b, hs, hc, hspan, hl⟩ := h.mem ht
  rw [hs, byteLength_append, byteLength_append] at hn
  rw [Nat.zero_add] at hspan hl
  rw [List.append_nil] at hl
  refine ⟨a, c, w, b, hs, hc, ?_, ?_, hl⟩
  · rw [hspan, Span.ofOffsets_start (by omega)]
  · rw [hspan, Span.ofOffsets_stop (by omega)]

theorem alone (h : Scanned single 0 s.toList ts []) (hn : byteLength s.toList < 4294967296)
    (ht : t ∈ ts) : IsToken single (t.span.slice s) t.kind := by
  obtain ⟨a, c, w, b, hs, hc, hstart, hstop, hl⟩ := h.place hn ht
  have hslice : Text.slice t.span.start.toNat t.span.stop.toNat s.toList = some (c :: w) := by
    rw [hstart, hstop, hs, ← List.append_assoc, slice_append]
  rw [hs, byteLength_append, byteLength_append] at hn
  rw [Span.slice, hslice]
  have hw : byteLength (c :: w) < 4294967296 := by omega
  exact (isToken_iff hw).2 ⟨c, w, rfl, hc, lexeme_cut hl (Nat.le_refl _)⟩

theorem longest (h : Scanned single 0 s.toList ts []) (hn : byteLength s.toList < 4294967296)
    (ht : t ∈ ts) {a v b' : List Char} (hs' : s.toList = a ++ v ++ b')
    (ha : byteLength a = t.span.start.toNat)
    (hlt : t.span.stop.toNat < byteLength a + byteLength v) (k : TokenKind) :
    ¬ IsToken single (String.ofList v) k := by
  intro hk
  obtain ⟨a', c, w, b, hs, -, hstart, hstop, hl⟩ := h.place hn ht
  rw [hs, List.append_assoc] at hs'
  rw [hstart] at ha
  obtain ⟨rfl, hv⟩ := append_cancel_bytes hs' ha.symm
  rw [hs, hv, byteLength_append, byteLength_append] at hn
  obtain ⟨d, v, rfl, -, hl'⟩ := (isToken_iff (by omega)).1 hk
  obtain ⟨rfl, htail⟩ := List.cons.inj hv
  have htail : w ++ b = v ++ b' := htail
  -- the longer text would have been read as far
  rw [htail] at hl
  have hle := lexeme_longest hl hl'
  obtain ⟨u, rfl⟩ : v <+: w :=
    List.prefix_of_prefix_length_le ⟨b', htail.symm⟩ (List.prefix_append w b) hle
  rw [hstop, ← List.cons_append, byteLength_append] at hlt
  omega

theorem covering (h : Scanned single 0 s.toList ts []) (hn : byteLength s.toList < 4294967296) :
    Covering single s ts where
  boundary t ht := by
    obtain ⟨a, c, w, b, hs, -, hstart, hstop, -⟩ := h.place hn ht
    rw [hstart, hstop]
    exact ⟨⟨a, _, hs, rfl⟩, ⟨a ++ c :: w, b, by rw [hs, List.append_assoc], byteLength_append ..⟩⟩
  nonempty t ht := by
    obtain ⟨a, c, w, b, -, -, hstart, hstop, -⟩ := h.place hn ht
    rw [UInt32.lt_iff_toNat_lt, hstart, hstop]
    exact Nat.lt_add_of_pos_right (byteLength_cons_pos c w)
  ordered := h.ordered (by rwa [Nat.zero_add])
  blank a c b hs := by
    have hd := h.blank_or_mem (by rwa [Nat.zero_add]) hs
    rwa [Nat.zero_add] at hd
  alone t ht := h.alone hn ht
  longest t ht a v b hs ha hlt := h.longest hn ht hs ha hlt

end Scanned

theorem fails_of_error {s : String} {e : LexError} (h : tokenize single s = .error e) :
    Fails single s e := by
  obtain ⟨a, us, c, b, hs, hus, hc, he⟩ := scanned_of_error h
  rw [Nat.zero_add] at he
  have hus : Scanned single 0 a us ([] ++ c :: b) := hus
  have hok := hus.cut.ok
  rw [Nat.zero_add] at hok
  obtain ⟨p, q, hpq, hp⟩ := lexeme_error he
  have hb : byteLength (a ++ p) = e.position := by rw [byteLength_append, hp]
  have hs' : s.toList = (a ++ p) ++ q := by rw [hs, hpq, List.append_assoc]
  refine ⟨⟨a ++ p, q, hs', hb⟩, ?_, a, c, b, us, hs, hc, he, ?_, ?_⟩
  · rw [← hb, hs', byteLength_append _ q]
    exact Nat.le_add_right ..
  · rw [hp]
    exact Nat.le_add_right ..
  · rw [tokenize, String.toList_ofList]
    exact hok

theorem tokenize_covers (single : Bool) (s : String) (hs : byteLength s.toList < 4294967296) :
    match tokenize single s with
    | .ok ts => ∃ us, ts = us ++ [endToken (byteLength s.toList)] ∧ Covering single s us
    | .error e => Fails single s e := by
  cases h : tokenize single s with
  | ok ts =>
    obtain ⟨us, rfl, hus⟩ := scanned_of_ok h
    exact ⟨us, by rw [Nat.zero_add], hus.covering hs⟩
  | error e => exact fails_of_error h

/-- a point belongs to a number only if a digit follows -/
theorem tokenize_covers_points : byteLength "é>=1.5.x".toList < 4294967296 ∧
    ∃ us, tokenize false "é>=1.5.x" = .ok (us ++ [endToken 9]) ∧ us.map (·.kind.toText) =
      ["é", ">=", "1.5", ".", "x"] ∧ Covering false "é>=1.5.x" us := by
  have hn : byteLength "é>=1.5.x".toList < 4294967296 := by decide
  have ht : (tokenize false "é>=1.5.x").toOption.map (·.map (·.kind.toText)) =
      some (["é", ">=", "1.5", ".", "x"] ++ ["end of input"]) := by decide +kernel
  have h := tokenize_covers false "é>=1.5.x" hn
  cases hr : tokenize false "é>=1.5.x" with
  | error e =>
    rw [hr] at ht
    cases ht
  | ok ts =>
    rw [hr] at h ht
    obtain ⟨us, rfl, hc⟩ := h
    have hk := List.map_append.symm.trans (Option.some.inj ht)
    exact ⟨hn, us, rfl, (List.append_inj' hk rfl).1, hc⟩

end ExprLang
