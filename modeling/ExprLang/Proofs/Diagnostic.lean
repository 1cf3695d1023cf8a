import ExprLang.SyntaxError
import ExprLang.Proofs.Text.Digits
import ExprLang.Proofs.Text.Place
import ExprLang.Proofs.Text.Search

/-!
# The caret of a diagnostic

Lines and columns are counted from zero here: `l` and `c` belong to the place `⟨l + 1, c + 1⟩`.

* `Text.lineAt cs l`              the line behind `l` others, empty if there is none;
* `Diagnostic.gutter d n`         what stands in front of the source line with the number `n`;
* `Diagnostic.shown d n`          the source line with the number `n` as a row, if there is one;
* `Diagnostic.rowsAt d l`         what is shown for the line `l`;
* `Diagnostic.Points out cs l c g k`
                                  the text `out` names the place, and below that it has the line `l`
                                  of `cs` behind its number in `g`, and then a caret behind `k` blanks;
* `Diagnostic.Widened cs l`       `l` is past the last line, and its number has a digit more than the
                                  number of the last line.

`rows_eq` says what a diagnostic consists of, `indent_eq` compares the indent of the caret with the
gutter, and `column_le` the column with the line.  The width of the numbers is that of a line that
exists, so the gutter is wider where the place is past the last line and `Widened` holds.
-/

namespace ExprLang

open Text

def Text.lineAt (cs : List Char) (l : Nat) : List Char := (lines cs)[l]?.getD []

namespace Diagnostic

def gutter (d : Diagnostic) (n : Nat) : List Char :=
  [' '] ++ padLeft d.width ' ' (digits n) ++ [' ', '|', ' ']

def shown (d : Diagnostic) : Nat → List (List Char)
  | 0 => []
  | l + 1 => ((lines d.source)[l]?.map (d.numbered (l + 1))).toList

def rowsAt (d : Diagnostic) (l : Nat) : List (List Char) :=
  ((lines d.source).zipIdx 1)[l]?.toList.flatMap fun (line, number) => d.entry number line

def indent (d : Diagnostic) : Nat := d.width + 4 + (d.place.column - 1)

theorem numbered_eq (d : Diagnostic) (n : Nat) (line : List Char) :
    d.numbered n line = d.gutter n ++ line := rfl

theorem caret_eq (d : Diagnostic) : d.caret = List.replicate d.indent ' ' ++ ['^'] := rfl

theorem gutter_eq (d : Diagnostic) (n : Nat) : d.gutter n =
    [' '] ++ List.replicate (d.width - (digits n).length) ' ' ++ digits n ++ [' ', '|', ' '] := by
  rw [gutter, padLeft, ← List.append_assoc [' ']]

theorem length_gutter (d : Diagnostic) (n : Nat) :
    (d.gutter n).length = max d.width (digits n).length + 4 := by
  rw [gutter, List.length_append, List.length_append, length_padLeft]
  show 1 + _ + 3 = _
  omega

theorem exists_place (d : Diagnostic) :
    ∃ l c, d.place = ⟨l + 1, c + 1⟩ ∧ l ≤ (lines d.source).length := by
  obtain ⟨a, b, done, rev, hs, h, hp, -⟩ := exists_begun_at d.source d.offset
  refine ⟨done.length, rev.length, hp, ?_⟩
  rw [hs, h.cut, List.length_append]
  omega

theorem drop_take_step {α : Type} {xs : List α} {i m : Nat} (h : i < m) :
    (xs.take m).drop i = xs[i]?.toList ++ (xs.take m).drop (i + 1) := by
  rw [List.drop_eq_getElem?_toList_append, List.getElem?_take, if_pos h]

/-- past the last line the width is that of the number of the last line, also if there is none -/
theorem width_eq {d : Diagnostic} (h : d.lastLine = (lines d.source).length) :
    d.width = (digits (lines d.source).length).length := by
  rw [width, h]
  cases (lines d.source).length with
  | zero => rw [digits_of_lt (by decide), digits_of_lt (by decide)]; rfl
  | succ n => rw [Nat.max_eq_left (Nat.succ_pos n)]

def Widened (cs : List Char) (l : Nat) : Prop :=
  l = (lines cs).length ∧ ∃ j : Nat, l + 1 = 10 ^ (j + 1)

section
variable {d : Diagnostic} {l c : Nat} (hp : d.place = ⟨l + 1, c + 1⟩)
include hp

theorem place_line : d.place.line = l + 1 := congrArg Place.line hp

theorem place_column : d.place.column = c + 1 := congrArg Place.column hp

/-! ## the rows around the place -/

theorem rowsAt_other {n : Nat} (hn : n ≠ l) : d.rowsAt n = d.shown (n + 1) := by
  rw [rowsAt, shown, List.getElem?_zipIdx, Nat.add_comm 1 n]
  cases (lines d.source)[n]? with
  | none => rfl
  | some line =>
    show d.entry (n + 1) line ++ [] = [d.numbered (n + 1) line]
    rw [List.append_nil, entry, place_line hp, if_neg (by omega)]

/-- the tail stands in for the line of the place if that line does not exist -/
theorem rowsAt_append_tail :
    d.rowsAt l ++ d.tail = [d.numbered (l + 1) (lineAt d.source l), d.caret] := by
  rw [rowsAt, tail, lineAt, List.getElem?_zipIdx, Nat.add_comm 1 l, place_line hp]
  cases hl : (lines d.source)[l]? with
  | none =>
    rw [if_pos (Nat.lt_succ_of_le (List.getElem?_eq_none_iff.1 hl))]
    rfl
  | some line =>
    obtain ⟨hlt, -⟩ := List.getElem?_eq_some_iff.1 hl
    rw [if_neg (by omega), List.append_nil]
    show d.entry (l + 1) line ++ [] = _
    rw [List.append_nil, entry, place_line hp, if_pos rfl]
    rfl

theorem shown_append_tail : d.shown (l + 2) ++ d.tail = d.tail ++ d.shown (l + 2) := by
  rw [tail, place_line hp]
  split
  · next h =>
    rw [shown, List.getElem?_eq_none (Nat.le_of_lt h)]
    rfl
  · rw [List.append_nil, List.nil_append]

theorem excerpt_eq : d.excerpt = d.shown l ++ d.rowsAt l ++ d.shown (l + 2) := by
  have htake : ((lines d.source).zipIdx 1).take d.lastLine =
      ((lines d.source).zipIdx 1).take (l + 2) := by
    rw [lastLine, place_line hp, List.take_eq_take_min (i := l + 2), List.length_zipIdx]
  rw [excerpt, htake, place_line hp, ← rowsAt_other hp (Nat.succ_ne_self l)]
  -- the first line has none in front of it
  cases l with
  | zero =>
    rw [drop_take_step (by decide), drop_take_step (by decide), List.drop_take_self,
      List.append_nil, List.flatMap_append]
    rfl
  | succ m =>
    rw [← rowsAt_other hp (Nat.ne_of_lt (Nat.lt_succ_self m)), show m + 1 + 1 - 2 = m by omega,
      drop_take_step (by omega), drop_take_step (by omega), drop_take_step (by omega),
      List.drop_take_self, List.append_nil, List.flatMap_append, List.flatMap_append,
      ← List.append_assoc]
    rfl

/-- the line of the place and the caret, between the lines on both sides of that one -/
theorem rows_eq : d.rows = d.header ++ d.shown l ++
    [d.numbered (l + 1) (lineAt d.source l), d.caret] ++ d.shown (l + 2) := by
  calc d.rows
    _ = d.header ++ (d.shown l ++ d.rowsAt l ++ (d.shown (l + 2) ++ d.tail)) := by
      rw [rows, excerpt_eq hp]
      simp only [List.append_assoc]
    _ = d.header ++ d.shown l ++ (d.rowsAt l ++ d.tail) ++ d.shown (l + 2) := by
      rw [shown_append_tail hp]
      simp only [List.append_assoc]
    _ = _ := by rw [rowsAt_append_tail hp]

/-! ## the indent of the caret -/

theorem length_digits_le_width (hl : l < (lines d.source).length) :
    (digits (l + 1)).length ≤ d.width := by
  refine length_digits_mono ?_
  rw [lastLine, place_line hp]
  omega

theorem width_past (hl : l = (lines d.source).length) : d.width = (digits l).length := by
  have hlast : d.lastLine = (lines d.source).length := by
    rw [lastLine, place_line hp]
    omega
  rw [width_eq hlast, ← hl]

/-- the caret stands `c` columns behind the gutter, or one column further to the left -/
theorem indent_eq (hle : l ≤ (lines d.source).length) :
    (¬ Widened d.source l ∧ d.indent = (d.gutter (l + 1)).length + c) ∨
    (Widened d.source l ∧ d.indent + 1 = (d.gutter (l + 1)).length + c) := by
  rw [length_gutter, indent, place_column hp, Nat.add_sub_cancel]
  by_cases hw : Widened d.source l
  · -- the width is that of the number before
    obtain ⟨hpast, j, hj⟩ := hw
    have hone := length_digits_pow hj
    rw [← width_past hp hpast] at hone
    exact .inr ⟨⟨hpast, j, hj⟩, by omega⟩
  · have hfits : (digits (l + 1)).length ≤ d.width := by
      by_cases hpast : l = (lines d.source).length
      · rw [width_past hp hpast]
        exact Nat.le_of_eq (length_digits_succ fun j hj => hw ⟨hpast, j, hj⟩)
      · exact length_digits_le_width hp (Nat.lt_of_le_of_ne hle hpast)
    exact .inl ⟨hw, by omega⟩

/-- the caret is under a character or just behind the line, or at a line feed behind a carriage
return, which the line has lost -/
theorem column_le : c ≤ (lineAt d.source l).length ∨
    (c = (lineAt d.source l).length + 1 ∧
      ∃ a b, d.source = a ++ '\r' :: '\n' :: b ∧ d.offset = byteLength a + 1) := by
  obtain ⟨a, b, done, rev, hs, h, hplace, hb, ha⟩ := exists_begun_at d.source d.offset
  obtain ⟨rfl, rfl⟩ : l = done.length ∧ c = rev.length := by
    have heq := hp.symm.trans hplace
    simp only [Place.mk.injEq, Nat.add_right_cancel_iff] at heq
    exact heq
  have hline : lineAt d.source done.length = (linesFrom rev b)[0]?.getD [] := by
    rw [lineAt, hs, h.cut, List.getElem?_append_right (Nat.le_refl _), Nat.sub_self]
  rw [hline]
  by_cases hempty : rev = [] ∧ b = []
  · rw [hempty.1, hempty.2]
    exact .inl (Nat.le_refl _)
  obtain ⟨line, rest, hl, hcases⟩ := exists_line (Decidable.not_and_iff_or_not.1 hempty)
  rw [hl]
  rcases hcases with hpre | ⟨rev', rfl, hfeed, rfl⟩
  · have hlen := hpre.length_le
    rw [List.length_reverse] at hlen
    exact .inl hlen
  · -- the offset is behind the carriage return, and not behind the line feed
    obtain ⟨x, rfl⟩ := h.suffix
    obtain ⟨b, rfl⟩ := List.head?_eq_some_iff.1 hfeed
    rw [List.reverse_cons, ← List.append_assoc] at hs hb ha
    have hlow := ha _ _ rfl
    have hup := hb (List.cons_ne_nil _ _)
    rw [byteLength_append _ ['\r']] at hup
    refine .inr ⟨?_, x ++ rev'.reverse, b, ?_, Nat.le_antisymm hup hlow⟩
    · show rev'.length + 1 = rev'.reverse.length + 1
      rw [List.length_reverse]
    · rw [hs, List.append_assoc]
      rfl

end

/-! ## what is shown -/

structure Points (out cs : List Char) (l c : Nat) (g : List Char) (k : Nat) : Prop where
  gutter : ∃ fill, g = [' '] ++ List.replicate fill ' ' ++ digits (l + 1) ++ [' ', '|', ' ']
  /-- all lines of the text, the one with the caret directly below the one of the source -/
  layout : ∃ before after : List (List Char), out = (("Error at line ".toList ++
    digits (l + 1) ++ ", column ".toList ++ digits (c + 1) ++ [':']) :: before ++
      [g ++ lineAt cs l, List.replicate k ' ' ++ ['^']] ++ after).flatMap (· ++ ['\n'])

theorem points {d : Diagnostic} {l c : Nat} (hp : d.place = ⟨l + 1, c + 1⟩) :
    Points d.render.toList d.source l c (d.gutter (l + 1)) d.indent where
  gutter := ⟨_, d.gutter_eq (l + 1)⟩
  layout := by
    refine ⟨([' ', ' '] ++ d.message) :: [] :: d.shown l, d.shown (l + 2), ?_⟩
    rw [render, String.toList_ofList, rows_eq hp, header, hp, numbered_eq, caret_eq]
    rfl

section
variable {out cs g : List Char} {l c k j : Nat} (h : Points out cs l c g k)
include h

theorem Points.le_length : (digits (l + 1)).length + 4 ≤ g.length := by
  obtain ⟨fill, rfl⟩ := h.gutter
  simp only [List.length_append, List.length_replicate, List.length_cons, List.length_nil]
  omega

/-- the caret is in the text, with as many blanks in front of it -/
theorem Points.occurs (hj : j ≤ k) : List.replicate j ' ' ++ ['^'] <:+: out := by
  obtain ⟨before, after, rfl⟩ := h.layout
  have hrow : List.replicate j ' ' ++ ['^'] <:+ List.replicate k ' ' ++ ['^'] := by
    refine ⟨List.replicate (k - j) ' ', ?_⟩
    rw [← List.append_assoc, List.replicate_append_replicate, Nat.sub_add_cancel hj]
  refine (hrow.isInfix.trans (List.prefix_append _ ['\n']).isInfix).trans ?_
  refine List.infix_of_mem_flatten (List.mem_map_of_mem ?_)
  simp only [List.mem_append, List.mem_cons, true_or, or_true]

end

end Diagnostic

namespace SyntaxError

def place (e : SyntaxError) (source : String) : Place := lineCol source.toList e.position

/-- the caret is in its column, but one column to the left where the number of the line is wider than
the width of the numbers -/
theorem render_points (e : SyntaxError) (source : String) : ∃ l c g k,
    e.place source = ⟨l + 1, c + 1⟩ ∧ l ≤ (lines source.toList).length ∧
    Diagnostic.Points (e.render source).toList source.toList l c g k ∧
    ((¬ Diagnostic.Widened source.toList l ∧ k = g.length + c) ∨
      (Diagnostic.Widened source.toList l ∧ k + 1 = g.length + c)) ∧
    (c ≤ (lineAt source.toList l).length ∨
      (c = (lineAt source.toList l).length + 1 ∧
        ∃ a b, source.toList = a ++ '\r' :: '\n' :: b ∧ e.position = byteLength a + 1)) := by
  let d : Diagnostic := ⟨source.toList, e.position, e.reason.toList⟩
  obtain ⟨l, c, hp, hle⟩ := d.exists_place
  exact ⟨l, c, d.gutter (l + 1), d.indent, hp, hle, Diagnostic.points hp,
    Diagnostic.indent_eq hp hle, Diagnostic.column_le hp⟩

/-- behind nine lines the number of the place has two digits, and the width is one -/
theorem render_misplaced :
    let source := "1\n1\n1\n1\n1\n1\n1\n1\n1\n"
    let e : SyntaxError := .parse (.unexpectedToken 18 "expression" "end of input")
    e.place source = ⟨10, 1⟩ ∧ ¬ ∃ g k,
      Diagnostic.Points (e.render source).toList source.toList 9 0 g k ∧ k = g.length + 0 := by
  intro source e
  refine ⟨by decide, ?_⟩
  rintro ⟨g, k, h, hk⟩
  have hdigits : (digits (9 + 1)).length = 2 := by decide +kernel
  have hnone : find? (List.replicate 6 ' ' ++ ['^']) (e.render source).toList = none := by
    decide +kernel
  have hg := h.le_length
  exact find?_ne_none (h.occurs (by omega)) hnone

end SyntaxError

end ExprLang
