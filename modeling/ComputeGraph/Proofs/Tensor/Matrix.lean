import ComputeGraph.Proofs.Decimal
import ComputeGraph.Proofs.Tensor.Literal
import ComputeGraph.Proofs.Text.Splitting

/-!
# Where the elements of a tensor stand in its literal

The text of a literal is a matrix: line breaks end its lines and single blanks separate the tokens
of a line. Every element of the tensor is written once, in the row and the column that its index
reversed gives in the shape reversed, so going down the columns one after another meets the
elements in their order in memory.

* `Text.tokens`, `Text.token?`, `Text.columnwise` — a text read as a matrix;
* `Tensor.element?` — the element at an index;
* `MatrixLiteral.LaysOut` — a literal has every element of a tensor in its place;
* `Tensor.tokens_matrixText` — the tokens of a literal are the entries of the matrix;
* **`literal_laysOut`** — a tensor with an element has a literal, which lays it out.
-/

namespace ComputeGraph

/-! ### A text read as a matrix -/

namespace Text

variable (text : String)

/-- The tokens on each line of a text. -/
def tokens : List (List (List Char)) :=
  (text.toList.splitOn '\n').dropLast.map (List.splitOn ' ')

/-- The token in a row and a column. -/
def token? (row col : Nat) : Option (List Char) :=
  (tokens text)[row]?.bind (·[col]?)

/-- The tokens going down the columns one after another. -/
def columnwise (cols : Nat) : List (List Char) :=
  (List.range cols).flatMap fun col => (tokens text).filterMap (·[col]?)

end Text

/-! ### Elements -/

/-- The element of a tensor at an index. The last axis runs fastest in memory. -/
def Tensor.element? (t : Tensor) (index : List Nat) : Option Float :=
  t.data[t.extents.rowMajor index]?

/-- A literal has every element of a tensor in its place. With `p` the reversed extents, the rows
run over the first axis of `p` and the columns over all others. -/
structure MatrixLiteral.LaysOut (literal : MatrixLiteral) (t : Tensor) : Prop where
  shape : literal.shape = .dims t.extents.reverse
  /-- The numbers of rows and columns. Forming the second stays below `2 ^ 64` at every step. -/
  extents : ∃ (n : UInt64) (rest : Extents), t.extents.reverse = n :: rest ∧
    literal.rows = n.toNat ∧ literal.cols = rest.elementCount ∧
    rest.elementCount? = some literal.cols
  /-- There are as many cells as elements. -/
  size : literal.rows * literal.cols = t.data.size
  /-- The entry of every cell is an element. -/
  place_lt : ∀ row < literal.rows, ∀ col < literal.cols, row + col * literal.rows < t.data.size
  /-- The text has line breaks at the end of its lines and single blanks between its tokens. -/
  text : literal.text.toList =
    (Text.tokens literal.text).flatMap fun line => [' '].intercalate line ++ ['\n']
  length_tokens : (Text.tokens literal.text).length = literal.rows
  length_line : ∀ line ∈ Text.tokens literal.text, line.length = literal.cols
  token : ∀ line ∈ Text.tokens literal.text, ∀ token ∈ line,
    token ≠ [] ∧ ' ' ∉ token ∧ '\n' ∉ token
  /-- Every index has one cell. -/
  cell : ∀ index, t.extents.IsIndex index → ∃! cell : Nat × Nat,
    cell.1 < literal.rows ∧ cell.2 < literal.cols ∧
      cell.1 + cell.2 * literal.rows = Extents.columnMajor t.extents.reverse index.reverse
  /-- Every cell has one index, and the element there is what the token spells. -/
  index : ∀ row < literal.rows, ∀ col < literal.cols,
    (∃! index, t.extents.IsIndex index ∧
      Extents.columnMajor t.extents.reverse index.reverse = row + col * literal.rows) ∧
    ∀ index, t.extents.IsIndex index →
      Extents.columnMajor t.extents.reverse index.reverse = row + col * literal.rows →
      ∃ x, t.element? index = some x ∧
        Text.token? literal.text row col = some (Binary64.fixedText 4 x)
  /-- Going down the columns gives the tensor back with its indices reversed. -/
  columnwise :
    (Text.columnwise literal.text literal.cols).length =
      Extents.elementCount t.extents.reverse ∧
    ∀ index, Extents.IsIndex t.extents.reverse index →
      ∃ x, t.element? index.reverse = some x ∧
        (Text.columnwise literal.text literal.cols)[Extents.columnMajor t.extents.reverse index]? =
          some (Binary64.fixedText 4 x)

/-! ### The text of one element -/

namespace Binary64

/-- A double is written without blanks and line breaks. -/
theorem not_mem_fixedText (places : Nat) (x : Float) {c : Char} (h : c = ' ' ∨ c = '\n') :
    c ∉ fixedText places x := by
  have hdecimal : ∀ d : Decimal, c ∉ d.text := by
    intro d
    rcases h with rfl | rfl <;> exact d.not_mem_text (by decide) (by decide) (by decide)
  unfold fixedText
  split
  · rcases h with rfl | rfl <;> decide
  · split
    · exact hdecimal _
    · rcases h with rfl | rfl <;> split <;> decide

theorem fixedText_ne_nil (places : Nat) (x : Float) : fixedText places x ≠ [] := by
  unfold fixedText
  split
  · exact List.cons_ne_nil _ _
  · split
    · exact Decimal.text_ne_nil _
    · split <;> exact List.cons_ne_nil _ _

end Binary64

/-! ### The tokens of a literal -/

namespace Tensor

variable {t : Tensor}

/-- The entries of the matrix, row by row. -/
def entries (t : Tensor) : List (List (List Char)) :=
  (List.range t.rows).map fun row => (List.range t.cols).map (t.entry t.rows row)

theorem mem_entries {line : List (List Char)} (h : line ∈ t.entries) :
    line.length = t.cols ∧
      ∀ token ∈ line, token ≠ [] ∧ ' ' ∉ token ∧ '\n' ∉ token := by
  obtain ⟨row, -, rfl⟩ := List.mem_map.1 h
  refine ⟨by rw [List.length_map, List.length_range], fun token htoken => ?_⟩
  obtain ⟨col, -, rfl⟩ := List.mem_map.1 htoken
  exact ⟨Binary64.fixedText_ne_nil _ _, Binary64.not_mem_fixedText _ _ (.inl rfl),
    Binary64.not_mem_fixedText _ _ (.inr rfl)⟩

/-- The text is the entries with blanks and line breaks between them. -/
theorem matrixText_eq_flatMap (t : Tensor) : t.matrixText t.rows t.cols =
    t.entries.flatMap fun line => [' '].intercalate line ++ ['\n'] := by
  rw [entries, List.flatMap_map]
  rfl

/-- **The tokens of a literal** are the entries of the matrix. -/
theorem tokens_matrixText {text : String} (hzero : 0 ∉ t.extents)
    (htext : text = String.ofList (t.matrixText t.rows t.cols)) : Text.tokens text = t.entries := by
  have hlines : t.matrixText t.rows t.cols =
      (t.entries.map [' '].intercalate).flatMap fun line => line ++ ['\n'] := by
    rw [matrixText_eq_flatMap, List.flatMap_map]
  have hbreak : ∀ line ∈ t.entries.map [' '].intercalate, '\n' ∉ line := by
    intro line hmem
    obtain ⟨line, hline, rfl⟩ := List.mem_map.1 hmem
    exact not_mem_intercalate (by decide) fun token htoken =>
      ((mem_entries hline).2 token htoken).2.2
  rw [Text.tokens, htext, String.toList_ofList, hlines, splitOn_lines hbreak,
    List.dropLast_concat, List.map_map]
  conv_rhs => rw [← List.map_id t.entries]
  refine List.map_congr_left fun line hline => ?_
  obtain ⟨hlength, htoken⟩ := mem_entries hline
  have hne : line ≠ [] := by
    rw [← List.length_pos_iff, hlength]
    exact cols_pos hzero
  exact List.splitOn_intercalate ' ' (fun token hmem => (htoken token hmem).2.1) hne

/-! ### Cells -/

/-- The places of a matrix, counted down the columns one after another. -/
theorem flatMap_range_map {α : Type} (f : Nat → α) (rows cols : Nat) :
    ((List.range cols).flatMap fun col => (List.range rows).map fun row => f (row + col * rows)) =
      (List.range (cols * rows)).map f := by
  induction cols with
  | zero => simp
  | succ cols ih =>
    rw [List.range_succ, List.flatMap_append, ih, Nat.succ_mul, List.range_add, List.map_append,
      List.map_map, List.flatMap_singleton]
    congr 1
    exact List.map_congr_left fun row _ => congrArg f (Nat.add_comm _ _)

theorem place_lt {rows cols row col : Nat} (hrow : row < rows) (hcol : col < cols) :
    row + col * rows < rows * cols := by
  calc row + col * rows < rows + col * rows := Nat.add_lt_add_right hrow _
    _ = rows * (col + 1) := by rw [Nat.mul_succ, Nat.add_comm, Nat.mul_comm]
    _ ≤ rows * cols := Nat.mul_le_mul_left _ hcol

/-- Every number below the count of cells is the place of one cell. -/
theorem existsUnique_cell {rows cols m : Nat} (h : m < rows * cols) :
    ∃! cell : Nat × Nat, cell.1 < rows ∧ cell.2 < cols ∧ cell.1 + cell.2 * rows = m := by
  have hrows : 0 < rows := Nat.pos_of_mul_pos_right (Nat.zero_lt_of_lt h)
  refine ⟨(m % rows, m / rows), ⟨Nat.mod_lt _ hrows, Nat.div_lt_of_lt_mul h, ?_⟩, ?_⟩
  · rw [Nat.mul_comm]
    exact Nat.mod_add_div m rows
  · rintro ⟨row, col⟩ ⟨hrow, -, hplace⟩
    have hrow' : m % rows = row := by
      rw [← hplace, Nat.add_mul_mod_self_right, Nat.mod_eq_of_lt hrow]
    have hcol' : m / rows = col := by
      rw [← hplace, Nat.add_mul_div_right _ _ hrows, Nat.div_eq_of_lt hrow, Nat.zero_add]
    rw [hrow', hcol']

section Entries

variable {text : String} (h : Text.tokens text = t.entries)

include h

theorem token?_of_tokens {row col : Nat} (hrow : row < t.rows) (hcol : col < t.cols) :
    Text.token? text row col = some (t.entry t.rows row col) := by
  rw [Text.token?, h, entries, List.getElem?_map, List.getElem?_range hrow]
  show ((List.range t.cols).map (t.entry t.rows row))[col]? = _
  rw [List.getElem?_map, List.getElem?_range hcol]
  rfl

/-- Going down the columns meets the elements in their order in memory. -/
theorem columnwise_of_tokens : Text.columnwise text t.cols =
    (List.range t.data.size).map fun m => Binary64.fixedText 4 (t.data.getD m 0) := by
  rw [← t.rows_mul_cols, Nat.mul_comm, ← flatMap_range_map, Text.columnwise, h, entries]
  refine List.flatMap_congr fun col hcol => ?_
  rw [List.filterMap_map, ← List.filterMap_eq_map']
  refine List.filterMap_congr fun row _ => ?_
  show ((List.range t.cols).map (t.entry t.rows row))[col]? = _
  rw [List.getElem?_map, List.getElem?_range (List.mem_range.1 hcol)]
  rfl

end Entries

theorem element?_eq_some {index : List Nat} (h : t.extents.IsIndex index) :
    Extents.columnMajor t.extents.reverse index.reverse < t.data.size ∧
      t.element? index =
        some (t.data.getD (Extents.columnMajor t.extents.reverse index.reverse) 0) := by
  have hlt := Extents.rowMajor_lt h
  rw [← t.size_data_extents] at hlt
  rw [← Extents.rowMajor_eq_columnMajor h]
  refine ⟨hlt, ?_⟩
  rw [element?, Array.getD_eq_getD_getElem?, Array.getElem?_eq_getElem hlt]
  rfl

end Tensor

/-! ### The layout -/

/-- A literal that a tensor has lays it out. -/
theorem Tensor.laysOut_of_literal {t : Tensor} {literal : MatrixLiteral}
    (h : t.literal = .ok literal) : literal.LaysOut t := by
  obtain ⟨hzero, hshape, hrows, hcols, htext⟩ := literal_eq_ok.1 h
  obtain ⟨n, rest, hreverse, hn, hrest⟩ := t.reverse_extents
  have htokens : Text.tokens literal.text = t.entries := tokens_matrixText hzero htext
  have hcolumnwise := columnwise_of_tokens htokens
  have hsize : t.rows * t.cols = t.data.size := t.rows_mul_cols
  have hcount : Extents.elementCount t.extents.reverse = t.data.size := by
    rw [Extents.elementCount_reverse, t.size_data_extents]
  refine
    { shape := hshape
      extents := ⟨n, rest, hreverse, hrows.trans hn, hcols.trans hrest, by
        rw [← cols?_of_reverse hreverse, cols?_eq_some hzero, hcols]⟩
      size := by rw [hrows, hcols, hsize]
      place_lt := ?_
      text := by rw [htokens, htext, String.toList_ofList, matrixText_eq_flatMap]
      length_tokens := by rw [htokens, entries, List.length_map, List.length_range, hrows]
      length_line := fun line hmem => hcols ▸ (mem_entries (htokens ▸ hmem)).1
      token := fun line hmem => (mem_entries (htokens ▸ hmem)).2
      cell := ?_
      index := ?_
      columnwise := ?_ }
  · intro row hrow col hcol
    rw [hrows] at hrow ⊢
    rw [hcols] at hcol
    exact hsize ▸ place_lt hrow hcol
  · intro index hindex
    rw [hrows, hcols]
    exact existsUnique_cell (hsize ▸ (element?_eq_some hindex).1)
  · intro row hrow col hcol
    rw [hrows] at hrow ⊢
    rw [hcols] at hcol
    refine ⟨?_, fun index hindex hplace => ?_⟩
    · refine Extents.existsUnique_reverse ?_
      rw [← t.size_data_extents, ← hsize]
      exact place_lt hrow hcol
    · rw [(element?_eq_some hindex).2, token?_of_tokens htokens hrow hcol, hplace]
      exact ⟨_, rfl, rfl⟩
  · refine ⟨?_, fun index hindex => ?_⟩
    · rw [hcols, hcolumnwise, List.length_map, List.length_range, hcount]
    · have hindex' : t.extents.IsIndex index.reverse := by
        rw [← Extents.isIndex_reverse_iff, List.reverse_reverse]
        exact hindex
      obtain ⟨hlt, helement⟩ := element?_eq_some hindex'
      rw [List.reverse_reverse] at hlt helement
      rw [hcols, hcolumnwise, List.getElem?_map, List.getElem?_range hlt, helement]
      exact ⟨_, rfl, rfl⟩

/-- There are as many entries as elements. -/
theorem MatrixLiteral.LaysOut.length_flatten {t : Tensor} {literal : MatrixLiteral}
    (h : literal.LaysOut t) :
    (Text.tokens literal.text).flatten.length = t.extents.elementCount := by
  have hlengths : (Text.tokens literal.text).map List.length =
      List.replicate literal.rows literal.cols := by
    rw [List.map_congr_left h.length_line, List.map_const', h.length_tokens]
  rw [List.length_flatten, hlengths, List.sum_replicate_nat, h.size, t.size_data_extents]

/-- **The literal of a tensor**: it exists iff the tensor has an element, and then every element
stands where its reversed index tells. -/
theorem literal_laysOut (t : Tensor) :
    (0 ∈ t.shape → t.literal = .error (.emptyValue t.extents)) ∧
      (0 ∉ t.shape → ∃ literal, t.literal = .ok literal ∧ literal.LaysOut t) := by
  rw [← Tensor.zero_mem_extents]
  refine ⟨Tensor.literal_of_mem, fun hzero => ?_⟩
  obtain ⟨literal, hliteral⟩ := Tensor.exists_literal hzero
  exact ⟨literal, hliteral, Tensor.laysOut_of_literal hliteral⟩

/-- Two lines of two tokens for a tensor on three axes, and none where an extent is zero. -/
theorem literal_laysOut_three_axes :
    (∃ literal, Tensor.literal ⟨[2, 1, 2], #[1, 2, 3, 4], rfl, by decide⟩ = .ok literal ∧
      literal.LaysOut ⟨[2, 1, 2], #[1, 2, 3, 4], rfl, by decide⟩) ∧
    Tensor.literal ⟨[0, 2], #[], rfl, by decide⟩ = .error (.emptyValue [0, 2]) :=
  ⟨(literal_laysOut ⟨[2, 1, 2], #[1, 2, 3, 4], rfl, by decide⟩).2 (by decide),
    (literal_laysOut ⟨[0, 2], #[], rfl, by decide⟩).1 (by decide)⟩

end ComputeGraph
