/-!
# Byte offsets into a text

A position in a text is a byte offset of its UTF-8 form.

* `byteLength cs`     the number of bytes of a text;
* `dropBytes n cs`    the text after its first `n` bytes, if that is a character boundary;
* `takeBytes n cs`    the first `n` bytes of a text, if that is a character boundary;
* `slice i j cs`      the text between two boundaries.
-/

namespace ExprLang.Text

def byteLength : List Char → Nat
  | [] => 0
  | c :: cs => c.utf8Size + byteLength cs

def dropBytes : Nat → List Char → Option (List Char)
  | 0, cs => some cs
  | _ + 1, [] => none
  | n + 1, c :: cs => if c.utf8Size ≤ n + 1 then dropBytes (n + 1 - c.utf8Size) cs else none

def takeBytes : Nat → List Char → Option (List Char)
  | 0, _ => some []
  | _ + 1, [] => none
  | n + 1, c :: cs =>
    if c.utf8Size ≤ n + 1 then (takeBytes (n + 1 - c.utf8Size) cs).map (c :: ·) else none

def slice (i j : Nat) (cs : List Char) : Option (List Char) :=
  if i ≤ j then (dropBytes i cs).bind (takeBytes (j - i)) else none

theorem byteLength_nil : byteLength [] = 0 := rfl
theorem byteLength_cons (c : Char) (cs : List Char) :
    byteLength (c :: cs) = c.utf8Size + byteLength cs := rfl

theorem byteLength_append (a b : List Char) :
    byteLength (a ++ b) = byteLength a + byteLength b := by
  induction a with
  | nil => simp [byteLength_nil]
  | cons c a ih => rw [List.cons_append, byteLength_cons, byteLength_cons, ih, Nat.add_assoc]

theorem dropBytes_byteLength (a b : List Char) : dropBytes (byteLength a) (a ++ b) = some b := by
  induction a with
  | nil => simp [byteLength_nil, dropBytes]
  | cons c a ih =>
    have hc := c.utf8Size_pos
    obtain ⟨n, hn⟩ : ∃ n, byteLength (c :: a) = n + 1 :=
      ⟨byteLength (c :: a) - 1, by rw [byteLength_cons]; omega⟩
    rw [hn, List.cons_append, dropBytes, if_pos (by rw [byteLength_cons] at hn; omega), ← hn,
      byteLength_cons, Nat.add_sub_cancel_left, ih]

theorem takeBytes_byteLength (a b : List Char) : takeBytes (byteLength a) (a ++ b) = some a := by
  induction a with
  | nil => simp [byteLength_nil, takeBytes]
  | cons c a ih =>
    have hc := c.utf8Size_pos
    obtain ⟨n, hn⟩ : ∃ n, byteLength (c :: a) = n + 1 :=
      ⟨byteLength (c :: a) - 1, by rw [byteLength_cons]; omega⟩
    rw [hn, List.cons_append, takeBytes, if_pos (by rw [byteLength_cons] at hn; omega), ← hn,
      byteLength_cons, Nat.add_sub_cancel_left, ih]
    rfl

/-- the middle of a text is its slice -/
theorem slice_append (a b c : List Char) :
    slice (byteLength a) (byteLength a + byteLength b) (a ++ b ++ c) = some b := by
  rw [slice, if_pos (by omega), List.append_assoc, dropBytes_byteLength, Option.bind_some,
    Nat.add_sub_cancel_left, takeBytes_byteLength]

end ExprLang.Text
