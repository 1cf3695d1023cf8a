import ExprLang.Text.Ranges

/-!
# Blank characters and trimming

`isBlank` is the Unicode property White_Space.  It separates tokens, and `trim` removes it from
both ends of a text.

* `trimStart`, `trimEnd`, `trimChars`   on lists of characters;
* `trim`                                on strings.

What has no blanks at its ends is trimmed already, and blanks around it are trimmed away:
`trimChars_of_ends`, `trimChars_between`.
-/

namespace ExprLang.Text

/-- the code points with the property White_Space -/
def blankRanges : List (Nat × Nat) :=
  [(0x9, 0xd), (0x20, 0x20), (0x85, 0x85), (0xa0, 0xa0), (0x1680, 0x1680), (0x2000, 0x200a),
   (0x2028, 0x2029), (0x202f, 0x202f), (0x205f, 0x205f), (0x3000, 0x3000)]

/-- a white space character -/
def isBlank (c : Char) : Bool := inRanges blankRanges c.toNat

/-! ## trimming -/

/-- the text without its leading blanks -/
def trimStart (cs : List Char) : List Char := cs.dropWhile isBlank

/-- the text without its trailing blanks -/
def trimEnd (cs : List Char) : List Char := (cs.reverse.dropWhile isBlank).reverse

/-- the text without blanks at either end -/
def trimChars (cs : List Char) : List Char := trimEnd (trimStart cs)

def trim (s : String) : String := String.ofList (trimChars s.toList)

theorem trimStart_cons (c : Char) (cs : List Char) :
    trimStart (c :: cs) = if isBlank c then trimStart cs else c :: cs := by
  simp only [trimStart, List.dropWhile_cons]

theorem toList_trim (s : String) : (trim s).toList = trimChars s.toList := by
  simp [trim]

theorem dropWhile_of_head {cs : List Char} (h : ∀ c, cs.head? = some c → isBlank c = false) :
    cs.dropWhile isBlank = cs := by
  cases cs with
  | nil => rfl
  | cons c cs =>
    rw [List.dropWhile_cons_of_neg]
    rw [h c rfl]
    exact Bool.false_ne_true

section
variable {cs : List Char} (hh : ∀ c, cs.head? = some c → isBlank c = false)
  (hl : ∀ c, cs.getLast? = some c → isBlank c = false)
include hh hl

theorem trimChars_of_ends : trimChars cs = cs := by
  rw [trimChars, trimStart, dropWhile_of_head hh, trimEnd, dropWhile_of_head, List.reverse_reverse]
  rwa [List.head?_reverse]

theorem trimChars_between (hne : cs ≠ []) {a b : List Char} (ha : ∀ c ∈ a, isBlank c = true)
    (hb : ∀ c ∈ b, isBlank c = true) : trimChars (a ++ cs ++ b) = cs := by
  have hstart : trimStart (a ++ cs ++ b) = cs ++ b := by
    rw [trimStart, List.append_assoc, List.dropWhile_append_of_pos ha, dropWhile_of_head]
    intro c hc
    obtain ⟨d, ds, rfl⟩ := List.exists_cons_of_ne_nil hne
    exact hh c hc
  have hb' : ∀ c ∈ b.reverse, isBlank c = true := fun c hc => hb c (List.mem_reverse.1 hc)
  rw [trimChars, hstart, trimEnd, List.reverse_append, List.dropWhile_append_of_pos hb',
    dropWhile_of_head, List.reverse_reverse]
  rwa [List.head?_reverse]

end

end ExprLang.Text
