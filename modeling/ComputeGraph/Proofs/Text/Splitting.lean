import Mathlib.Data.List.Basic

/-!
# Splitting at separators and joining with them

Lists that are split at a separator, and lists that are joined with one or two separators between
them.

* `not_mem_of_mem_splitOn`, `not_mem_intercalate` — what does not occur in the parts or the whole;
* `splitOn_lines` — lines with a break after each;
* `intercalate_pair` — a pair of separators as one separator.
-/

namespace ComputeGraph

/-! ### Splitting -/

/-- The parts between separators do not hold the separator. -/
theorem not_mem_of_mem_splitOn {α : Type} [BEq α] [LawfulBEq α] {sep : α} {body token : List α}
    (h : token ∈ body.splitOn sep) : sep ∉ token := by
  induction body generalizing token with
  | nil =>
    rw [List.splitOn_nil, List.mem_singleton] at h
    rw [h]
    exact List.not_mem_nil
  | cons c body ih =>
    rw [List.splitOn_cons_eq_if_modifyHead] at h
    split at h
    · rcases List.mem_cons.1 h with rfl | h
      · exact List.not_mem_nil
      · exact ih h
    · rename_i hc
      cases hparts : body.splitOn sep with
      | nil => exact absurd hparts (List.splitOn_ne_nil sep body)
      | cons first parts =>
        rw [hparts] at h ih
        rcases List.mem_cons.1 h with rfl | h
        · intro hmem
          rcases List.mem_cons.1 hmem with rfl | hmem
          · exact hc (beq_self_eq_true _)
          · exact ih List.mem_cons_self hmem
        · exact ih (List.mem_cons_of_mem _ h)

theorem splitOn_lines {lines : List (List Char)} (h : ∀ line ∈ lines, '\n' ∉ line) :
    (lines.flatMap fun line => line ++ ['\n']).splitOn '\n' = lines ++ [[]] := by
  induction lines with
  | nil => rfl
  | cons line lines ih =>
    obtain ⟨hline, hlines⟩ := List.forall_mem_cons.1 h
    rw [List.flatMap_cons, List.append_assoc, List.singleton_append,
      List.splitOn_append_cons_self_of_not_mem hline, ih hlines, List.cons_append]

/-! ### Joining -/

theorem not_mem_intercalate {c d : Char} (hd : c ≠ d) {tokens : List (List Char)}
    (h : ∀ token ∈ tokens, c ∉ token) : c ∉ [d].intercalate tokens := by
  induction tokens with
  | nil => exact List.not_mem_nil
  | cons token tokens ih =>
    obtain ⟨htoken, htokens⟩ := List.forall_mem_cons.1 h
    cases tokens with
    | nil =>
      rw [List.intercalate_singleton]
      exact htoken
    | cons next tokens =>
      rw [List.intercalate_cons_cons]
      intro hmem
      obtain hmem | hrest := List.mem_append.1 hmem
      · obtain hmem | hsep := List.mem_append.1 hmem
        · exact htoken hmem
        · exact hd (List.mem_singleton.1 hsep)
      · exact ih htokens hrest

/-- A list with a pair of separators is one with the first of them, whose later members begin with
the second. -/
theorem intercalate_pair {α : Type} (a b : α) (first : List α) (rest : List (List α)) :
    [a, b].intercalate (first :: rest) = [a].intercalate (first :: rest.map (b :: ·)) := by
  induction rest generalizing first with
  | nil => rfl
  | cons second rest ih =>
    rw [List.map_cons, List.intercalate_cons_cons, List.intercalate_cons_cons, ih,
      List.intercalate_cons_cons_left]
    simp

end ComputeGraph
