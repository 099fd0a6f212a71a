import ComputeGraph.Proofs.Shape.Reshape
import ComputeGraph.Tensor.Literal

/-!
# When a tensor has a literal

The rows of a literal run over the innermost axis, and its columns over all others. Their number is
formed in machine words and refused if it leaves the range of words at some step. That never
happens to a tensor with an element: each partial product divides the number of elements, which a
word counts. So a tensor has a literal iff it has an element.

* `Tensor.reverse_extents`, `Tensor.rows_mul_cols` — the numbers of rows and columns;
* `Tensor.cols?_eq_some` — forming the number of columns stays in the range of words;
* **`Tensor.literal_eq_ok`**, **`Tensor.literal_eq_error`** — which tensors have a literal, and
  which one;
* `Tensor.literal_ne_valueTooLarge` — no value is too large to be written.
-/

namespace ComputeGraph.Tensor

/-! ### Rows and columns -/

section Cells

variable (t : Tensor)

theorem extents_ne_nil : t.extents ≠ [] := by
  unfold extents
  split
  · exact List.cons_ne_nil _ _
  · assumption

theorem size_data_extents : t.data.size = t.extents.elementCount := by
  rw [t.size_data]
  unfold extents
  split
  · rename_i h
    rw [h]
    rfl
  · rfl

/-- The rows run over the innermost axis and the columns over all others. -/
theorem reverse_extents : ∃ (n : UInt64) (rest : Extents), t.extents.reverse = n :: rest ∧
    t.rows = n.toNat ∧ t.cols = rest.elementCount := by
  obtain hnil | ⟨outer, n, hconcat⟩ := List.eq_nil_or_concat' t.extents
  · exact absurd hnil t.extents_ne_nil
  · refine ⟨n, outer.reverse, ?_, ?_, ?_⟩
    · rw [hconcat, List.reverse_concat]
    · rw [rows, hconcat, List.getLast?_concat]
      rfl
    · rw [cols, hconcat, List.dropLast_concat, Extents.elementCount_reverse]

theorem rows_mul_cols : t.rows * t.cols = t.data.size := by
  obtain ⟨n, rest, hreverse, hrows, hcols⟩ := t.reverse_extents
  rw [t.size_data_extents, ← Extents.elementCount_reverse, hreverse, hrows, hcols]
  rfl

end Cells

variable {t : Tensor} {literal : MatrixLiteral}

theorem zero_mem_extents : 0 ∈ t.extents ↔ 0 ∈ t.shape := by
  unfold extents
  split
  · rename_i h
    rw [h]
    decide
  · rfl

theorem rows_mul_cols_pos (h : 0 ∉ t.extents) : 0 < t.rows * t.cols := by
  rw [t.rows_mul_cols, t.size_data_extents]
  exact Extents.elementCount_pos h

theorem cols_pos (h : 0 ∉ t.extents) : 0 < t.cols :=
  Nat.pos_of_mul_pos_left (rows_mul_cols_pos h)

/-! ### Forming the number of columns -/

theorem cols?_of_reverse {n : UInt64} {rest : Extents} (h : t.extents.reverse = n :: rest) :
    t.cols? = rest.elementCount? := by
  have hengine : (Shape.dims t.extents).toEngine.extents = n :: rest := h
  rw [cols?, hengine, List.tail_cons]

/-- The columns are no more than the elements, which a machine word counts, so forming their number
stays in the range of words. -/
theorem cols?_eq_some (h : 0 ∉ t.extents) : t.cols? = some t.cols := by
  obtain ⟨n, rest, hreverse, -, hrest⟩ := t.reverse_extents
  have hzero : 0 ∉ rest := by
    intro hmem
    refine h (List.mem_reverse.1 ?_)
    rw [hreverse]
    exact List.mem_cons_of_mem _ hmem
  have hrows : 0 < t.rows := Nat.pos_of_mul_pos_right (rows_mul_cols_pos h)
  have hcols : 1 * rest.elementCount < UInt64.size := by
    calc 1 * rest.elementCount = t.cols := by rw [Nat.one_mul, hrest]
      _ ≤ t.rows * t.cols := Nat.le_mul_of_pos_left _ hrows
      _ = t.data.size := t.rows_mul_cols
      _ < UInt64.size := t.size_lt
  rw [← Extents.filter_of_not_mem hzero] at hcols
  rw [cols?_of_reverse hreverse, Extents.elementCount?, countFrom?_of_filter hcols, Nat.one_mul,
    hrest]

/-! ### Literals -/

theorem literal_of_mem (h : 0 ∈ t.extents) : t.literal = .error (.emptyValue t.extents) :=
  if_pos h

theorem literal_of_not_mem (h : 0 ∉ t.extents) :
    t.literal = .ok
      { shape := (Shape.dims t.extents).toEngine
        rows := t.rows
        cols := t.cols
        text := String.ofList (t.matrixText t.rows t.cols) } := by
  rw [Tensor.literal, if_neg h, cols?_eq_some h]

/-- A tensor with an element has a literal. -/
theorem exists_literal (h : 0 ∉ t.extents) : ∃ literal, t.literal = .ok literal :=
  ⟨_, literal_of_not_mem h⟩

/-- **The literal of a tensor** has its shape for the engine, its rows and columns and the text of
its matrix. It exists iff the tensor has an element. -/
theorem literal_eq_ok : t.literal = .ok literal ↔
    0 ∉ t.extents ∧ literal.shape = (Shape.dims t.extents).toEngine ∧ literal.rows = t.rows ∧
      literal.cols = t.cols ∧ literal.text = String.ofList (t.matrixText t.rows t.cols) := by
  by_cases hzero : 0 ∈ t.extents
  · rw [literal_of_mem hzero]
    exact ⟨nofun, fun h => absurd hzero h.1⟩
  · rw [literal_of_not_mem hzero, Except.ok.injEq]
    constructor
    · rintro rfl
      exact ⟨hzero, rfl, rfl, rfl, rfl⟩
    · rintro ⟨-, hshape, hrows, hcols, htext⟩
      cases literal
      cases hshape
      cases hrows
      cases hcols
      cases htext
      rfl

/-- **Only a tensor without elements** has no literal. -/
theorem literal_eq_error {e : Error} :
    t.literal = .error e ↔ 0 ∈ t.extents ∧ e = .emptyValue t.extents := by
  by_cases hzero : 0 ∈ t.extents
  · rw [literal_of_mem hzero, Except.error.injEq]
    exact ⟨fun h => ⟨hzero, h.symm⟩, fun h => h.2.symm⟩
  · rw [literal_of_not_mem hzero]
    exact ⟨nofun, fun h => absurd h.1 hzero⟩

/-- No value is too large to be written: where a word counts the elements it counts the columns. -/
theorem literal_ne_valueTooLarge (shape : Extents) : t.literal ≠ .error (.valueTooLarge shape) := by
  intro h
  cases (literal_eq_error.1 h).2

end ComputeGraph.Tensor
