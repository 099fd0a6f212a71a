import ComputeGraph.Text.Blank

/-!
# Numerals for machine words

A machine word is written in decimal digits, with as many leading zeros as one likes and at most
one leading plus sign. Only the ASCII digits count.

* `digits?` — the number a non-empty run of digits stands for;
* `word?` — the 64-bit word a numeral stands for.
-/

namespace ComputeGraph.Text

/-- The number written by a non-empty run of digits. -/
def digits? (s : List Char) : Option Nat :=
  if s ≠ [] ∧ s.all Char.isDigit = true then some (Nat.ofDigitChars 10 s 0) else none

/-- A numeral without the plus sign it may begin with. -/
def dropPlus : List Char → List Char
  | '+' :: s => s
  | s => s

/-- The 64-bit word that a numeral stands for. -/
def word? (s : List Char) : Option UInt64 :=
  (digits? (dropPlus s)).bind fun n => if n < UInt64.size then some (UInt64.ofNat n) else none

/-- Digits begin with no plus sign. -/
theorem dropPlus_of_isDigit {s : List Char} (h : s.all Char.isDigit = true) : dropPlus s = s := by
  cases s with
  | nil => rfl
  | cons c r =>
    have hc : c.isDigit = true := (List.all_eq_true.1 h) c (by simp)
    unfold dropPlus
    split
    · rename_i heq
      simp only [List.cons.injEq] at heq
      rw [heq.1] at hc
      exact absurd hc (by decide)
    · rfl

end ComputeGraph.Text
