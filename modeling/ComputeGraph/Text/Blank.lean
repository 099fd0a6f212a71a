/-!
# Blank characters

The characters with the Unicode property White_Space, and the removal of them from both ends of
a text.

* `isBlank` — membership in the table `blankRanges`;
* `trim` — a text without its blank ends.

A text without blank ends is its own trimming (`trim_eq_self`).
-/

namespace ComputeGraph.Text

/-- The code points with the property White_Space, as closed ranges in increasing order. -/
def blankRanges : List (Nat × Nat) :=
  [(0x9, 0xD), (0x20, 0x20), (0x85, 0x85), (0xA0, 0xA0), (0x1680, 0x1680), (0x2000, 0x200A),
    (0x2028, 0x2029), (0x202F, 0x202F), (0x205F, 0x205F), (0x3000, 0x3000)]

/-- Whether a character is blank. -/
def isBlank (c : Char) : Bool :=
  blankRanges.any fun range => range.1 ≤ c.toNat && c.toNat ≤ range.2

/-- A text without the blanks at its end. -/
def trimEnd (s : List Char) : List Char :=
  (s.reverse.dropWhile isBlank).reverse

/-- A text without the blanks at its two ends. -/
def trim (s : List Char) : List Char :=
  trimEnd (s.dropWhile isBlank)

/-! ### What trimming does -/

theorem trimEnd_append_singleton (s : List Char) {c : Char} (h : isBlank c = false) :
    trimEnd (s ++ [c]) = s ++ [c] := by
  simp [trimEnd, h]

theorem trim_eq_self (a : Char) (s : List Char) (c : Char) (ha : isBlank a = false)
    (hc : isBlank c = false) : trim (a :: (s ++ [c])) = a :: (s ++ [c]) := by
  rw [trim, List.dropWhile_cons, if_neg (by simp [ha]), ← List.cons_append,
    trimEnd_append_singleton _ hc]

end ComputeGraph.Text
