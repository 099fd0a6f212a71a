import ComputeGraph.Proofs.Builder.Folding
import ComputeGraph.Proofs.Builder.Names
import ComputeGraph.Proofs.Elementwise
import ComputeGraph.Proofs.Tensor.Matrix

/-!
# The numbers of folded constants

The engine reads the numbers of a constant from its text, which has four decimal places. Where a
function of a literal is folded, the function comes before the rounding to these places; where it is
not, the engine applies the function to the rounded numbers. The two orders agree for all entries
that rounding does not take to a jump of the function.

* `Text.number?` — the number in a row and a column of a text;
* `Graph.initialText?` — the text that a node starts with;
* `Tensor.number?_literal` — the numbers in the text of a tensor are its elements, rounded;
* `Settings.plain_stores`, `Settings.folding_stores` — what the two builders store;
* **`folded_number_iff`** — where the two texts agree.
-/

namespace ComputeGraph

/-! ### The numbers of a text -/

/-- The number that is written in a row and a column. -/
def Text.number? (text : String) (row col : Nat) : Option ℚ :=
  ((Text.token? text row col).bind Decimal.ofText?).map Decimal.value

theorem Binary64.fixedText_of_isFinite (places : Nat) {x : Float} (h : isFinite x = true) :
    fixedText places x = (fixed places x).text := by
  have hnan : isNaN x = false := by
    have hexponent : (exponent x == 2047) = false := beq_eq_false_iff_ne.2 (bne_iff_ne.1 h)
    rw [isNaN, hexponent]
    rfl
  rw [fixedText, hnan, if_neg Bool.false_ne_true, if_pos h]

namespace Tensor

variable {t : Tensor} {literal : MatrixLiteral}

/-- The text of a tensor has its rows and columns. -/
theorem lengths_of_literal (h : t.literal = .ok literal) :
    (Text.tokens literal.text).map List.length = List.replicate t.rows t.cols := by
  obtain ⟨hzero, -, -, -, htext⟩ := literal_eq_ok.1 h
  rw [tokens_matrixText hzero htext, entries, List.map_map, List.eq_replicate_iff]
  refine ⟨by rw [List.length_map, List.length_range], fun n hn => ?_⟩
  obtain ⟨row, -, rfl⟩ := List.mem_map.1 hn
  show ((List.range t.cols).map _).length = t.cols
  rw [List.length_map, List.length_range]

/-- **The numbers in the text of a tensor** are its elements, rounded. -/
theorem number?_literal (h : t.literal = .ok literal) {row col : Nat} (hrow : row < t.rows)
    (hcol : col < t.cols) {x : Float} (hx : t.data[row + col * t.rows]? = some x)
    (hfinite : Binary64.isFinite x = true) :
    Text.number? literal.text row col = some (Binary64.rounded 4 x) := by
  obtain ⟨hzero, -, -, -, htext⟩ := literal_eq_ok.1 h
  have hentry : t.entry t.rows row col = (Binary64.fixed 4 x).text := by
    rw [entry, Array.getD_eq_getD_getElem?, hx, ← Binary64.fixedText_of_isFinite 4 hfinite]
    rfl
  rw [Text.number?, token?_of_tokens (tokens_matrixText hzero htext) hrow hcol, hentry,
    Option.bind_some, Decimal.ofText?_text]
  rfl

end Tensor

/-! ### What the builders store -/

/-- The text that a node starts with. -/
def Graph.initialText? (graph : Graph) (id : NodeId) : Option String :=
  (graph.node? id).bind fun node =>
    (node.attributes.find? "initFromLiteral").bind Attribute.text?

theorem Graph.initialText?_of_isConstant {graph : Graph} {id : NodeId} {node : Node}
    {value : Tensor} (hnode : graph.node? id = some node) (h : node.IsConstant value) :
    ∃ literal, value.literal = .ok literal ∧ graph.initialText? id = some literal.text := by
  obtain ⟨literal, hliteral, hattributes⟩ := h.attributes_eq
  refine ⟨literal, hliteral, ?_⟩
  rw [initialText?, hnode, Option.bind_some, hattributes]
  simp [constantAttributes, Attributes.ofList, Attribute.text?]

namespace Settings

variable {settings : Settings} {options : Options} {graph after : Graph} {id : NodeId}
  {f : Elementwise} {value : Tensor} {name : Option String}

/-- A builder that does not fold stores the literal and a node that applies the function to it. -/
theorem plain_stores
    (h : ((options.foldingSettings false).perform (.unary (.apply f) (.literal value) name)).Yields
      graph id after) :
    ∃ node literal, after.node? id = some node ∧ node.kind = f.kind ∧
      node.inputs = [graph.size] ∧ value.literal = .ok literal ∧
      after.initialText? graph.size = some literal.text := by
  have hfold : (options.foldingSettings false).foldedCall?
      (.unary (.apply f) (.literal value) name) = none := rfl
  rw [perform_of_unfolded hfold] at h
  obtain ⟨constants, mid, request, node, happends, hall, hrequest, hgrants, rfl, rfl⟩ :=
    performStages_yields h
  obtain ⟨c, rest, hc, hrest, rfl⟩ := List.forall₂_cons_left_iff.1 hall
  obtain rfl := List.forall₂_nil_left_iff.1 hrest
  obtain ⟨hkind, -, hinputs⟩ := Call.request_says hrequest
  obtain ⟨hid, hkind', hinputs', -, -, -⟩ := takes_over_of_grants hgrants
  have hsize : mid.size = graph.size + 1 := happends.size_eq
  have hconstant : (mid.snoc node).node? graph.size = some c := by
    have hlt : graph.size < mid.size := hsize ▸ Nat.lt_succ_self _
    rw [← Graph.extend_singleton, Graph.node?_extend_of_lt _ _ hlt, happends.1]
    exact Graph.node?_extend_add graph [c] 0
  obtain ⟨literal, hliteral, htext⟩ := Graph.initialText?_of_isConstant hconstant hc
  refine ⟨node, literal, ?_, hkind'.trans hkind, hinputs'.trans hinputs, hliteral, htext⟩
  rw [hid]
  exact Graph.node?_snoc_size mid node

/-- A builder that folds stores the values of the function. -/
theorem folding_stores
    (h : ((options.foldingSettings true).perform (.unary (.apply f) (.literal value) name)).Yields
      graph id after) :
    ∃ literal, (f.fold options.domainPolicy value).literal = .ok literal ∧
      after.initialText? id = some literal.text := by
  have hfold : (options.foldingSettings true).foldedCall?
      (.unary (.apply f) (.literal value) name) = some (f, value) := rfl
  obtain ⟨hgraph, hresult⟩ := perform_of_folded hfold graph
  obtain ⟨node, hconstant, rfl, -, happends⟩ :=
    constant_yields ⟨hresult.symm.trans h.1, hgraph.symm.trans h.2⟩
  have hid : node.id = graph.size := (List.cons.inj happends.2).1
  have hnode : after.node? node.id = some node := by
    rw [hid, happends.1]
    exact Graph.node?_extend_add graph [node] 0
  exact Graph.initialText?_of_isConstant hnode hconstant

/-! ### Calls without a name -/

/-- A request without a name is granted if it would be granted under every name. -/
theorem add_yields_of_unnamed (options : Options) (fold : Bool) (request : Request)
    {shape : Option Extents} (hname : request.name = none)
    (h : ∀ name, Request.IsAdmitted graph { request with name } shape) :
    ((options.foldingSettings fold).add request).Yields graph graph.size
      (graph.snoc ((request.named options graph).toNode graph shape)) := by
  have hadmitted := h (request.named options graph).name
  rw [← Request.named_eq] at hadmitted
  exact add_yields_of_named fold hadmitted (graph.isFree_named hname options)

/-- A tensor with elements becomes a constant. -/
theorem constant_unnamed_succeeds (options : Options) (fold : Bool) (h : 0 ∉ value.extents)
    (graph : Graph) :
    ∃ c, c.IsConstant value ∧
      ((options.foldingSettings fold).constant value none).Yields graph graph.size
        (graph.snoc c) := by
  obtain ⟨literal, hliteral⟩ := Tensor.exists_literal h
  let request : Request :=
    { kind := .parameter, attributes := constantAttributes literal
      hostShape := some value.extents }
  have hrequest := constant_request hliteral none graph
  have hadmitted : ∀ name, Request.IsAdmitted graph { request with name } (some value.extents) :=
    fun name => constant_isAdmitted literal name value.extents graph
  have hadd := add_yields_of_unnamed options fold request rfl hadmitted
  refine ⟨_, ?_, Build.yields_bind.2 ⟨_, graph, hrequest, hadd⟩⟩
  rw [Request.named_eq]
  exact ⟨rfl, rfl, ⟨literal, hliteral, rfl⟩, rfl⟩

/-- Neither builder refuses a function of a literal with elements that gets no name. -/
theorem unnamed_succeeds (options : Options) (fold : Bool) (f : Elementwise)
    (h : 0 ∉ value.extents) (graph : Graph) :
    ∃ id after, ((options.foldingSettings fold).perform
      (.unary (.apply f) (.literal value) none)).Yields graph id after := by
  cases fold with
  | true =>
    have hfold : (options.foldingSettings true).foldedCall?
        (.unary (.apply f) (.literal value) none) = some (f, value) := rfl
    have hempty : 0 ∉ (f.fold options.domainPolicy value).extents := h
    obtain ⟨c, -, hmade⟩ := constant_unnamed_succeeds options true hempty graph
    obtain ⟨hgraph, hresult⟩ := perform_of_folded hfold graph
    exact ⟨_, _, hresult.trans hmade.1, hgraph.trans hmade.2⟩
  | false =>
    obtain ⟨c, hc, hmade⟩ := constant_unnamed_succeeds options false h graph
    let request : Request := { kind := f.kind, inputs := [graph.size] }
    have hadmitted : ∀ name, Request.IsAdmitted (graph.snoc c) { request with name } c.hostShape :=
      fun name => apply_isAdmitted f (Graph.node?_snoc_size graph c) name
    have hadd := add_yields_of_unnamed options false request rfl hadmitted
    have hyields : ((options.foldingSettings false).performUnary (.apply f) (.literal value)
        none).Yields graph (graph.snoc c).size
          ((graph.snoc c).snoc ((request.named options (graph.snoc c)).toNode (graph.snoc c)
            c.hostShape)) := by
      rw [performUnary_apply]
      exact Build.yields_bind.2 ⟨_, _, hmade, Build.yields_bind.2 ⟨_, _, ⟨rfl, rfl⟩, hadd⟩⟩
    exact ⟨_, _, hyields⟩

end Settings

/-! ### The two texts -/

/-- The elements of a tensor in the order of the cells of its text. -/
theorem Tensor.exists_data (t : Tensor) {row col : Nat} (hrow : row < t.rows)
    (hcol : col < t.cols) : ∃ x ∈ t.data, t.data[row + col * t.rows]? = some x := by
  have hlt : row + col * t.rows < t.data.size := t.rows_mul_cols ▸ Tensor.place_lt hrow hcol
  exact ⟨t.data[row + col * t.rows], Array.getElem_mem hlt, Array.getElem?_eq_getElem hlt⟩

/-- **Folding a function of a literal.** Both builders succeed if the call gives no name. Whenever
both succeed, the plain one stores the literal and applies the function to it, the folding one
stores the values, and in every cell the number of the values is the function of the number of the
literal iff rounding to four places does not take the element to a jump of the function. -/
theorem folded_number_iff {f : Elementwise} {g : ℚ → ℚ} (hg : f.rational? = some g)
    (options : Options) (graph : Graph) {value : Tensor} (hvalue : 0 ∉ value.shape)
    (hfinite : ∀ x ∈ value.data, Binary64.isFinite x = true) :
    (∀ fold, ∃ id after, ((options.foldingSettings fold).perform
      (.unary (.apply f) (.literal value) none)).Yields graph id after) ∧
    ∀ name id after id' after',
      ((options.foldingSettings false).perform (.unary (.apply f) (.literal value) name)).Yields
        graph id after →
      ((options.foldingSettings true).perform (.unary (.apply f) (.literal value) name)).Yields
        graph id' after' →
      ∃ node text text', after.node? id = some node ∧ node.kind = f.kind ∧
        node.inputs = [graph.size] ∧ after.initialText? graph.size = some text ∧
        after'.initialText? id' = some text' ∧
        (Text.tokens text).map List.length = List.replicate value.rows value.cols ∧
        (Text.tokens text').map List.length = List.replicate value.rows value.cols ∧
        ∀ row < value.rows, ∀ col < value.cols, ∃ x q q',
          value.data[row + col * value.rows]? = some x ∧
          Text.number? text row col = some q ∧ Text.number? text' row col = some q' ∧
          (q' = g q ↔ f.KeepsOff 4 (Binary64.value x)) := by
  refine ⟨fun fold => Settings.unnamed_succeeds options fold f
    (Tensor.zero_mem_extents.not.2 hvalue) graph, ?_⟩
  intro name id after id' after' hplain hfolding
  obtain ⟨node, literal, hnode, hkind, hinputs, hliteral, htext⟩ := Settings.plain_stores hplain
  obtain ⟨literal', hliteral', htext'⟩ := Settings.folding_stores hfolding
  have hlengths : (Text.tokens literal'.text).map List.length =
      List.replicate (f.fold options.domainPolicy value).rows
        (f.fold options.domainPolicy value).cols := Tensor.lengths_of_literal hliteral'
  refine ⟨node, literal.text, literal'.text, hnode, hkind, hinputs, htext, htext',
    Tensor.lengths_of_literal hliteral, hlengths, ?_⟩
  intro row hrow col hcol
  obtain ⟨x, hmem, hx⟩ := value.exists_data hrow hcol
  have hx' : (f.fold options.domainPolicy value).data[row + col * value.rows]? =
      some (f.eval options.domainPolicy x) := by
    show (value.data.map (f.eval options.domainPolicy))[row + col * value.rows]? = _
    rw [Array.getElem?_map, hx]
    rfl
  have hexact := Elementwise.eval_isValue hg options.domainPolicy (hfinite x hmem)
  have hnumber := Tensor.number?_literal hliteral hrow hcol hx (hfinite x hmem)
  have hnumber' := Tensor.number?_literal hliteral' hrow hcol hx' hexact.1
  refine ⟨x, _, _, hx, hnumber, hnumber', ?_⟩
  exact Elementwise.rounded_eval_iff hg options.domainPolicy (by decide) (hfinite x hmem)

/-- Two and a half is far from a jump, and both ways give two. -/
theorem folded_number_iff_half : ∃ id after id' after' text text' q,
    ((({} : Options).foldingSettings false).perform
      (.unary (.apply .floor) (.literal (.fill [1] 2.5)) none)).Yields .empty id after ∧
    ((({} : Options).foldingSettings true).perform
      (.unary (.apply .floor) (.literal (.fill [1] 2.5)) none)).Yields .empty id' after' ∧
    after.initialText? 0 = some text ∧ after'.initialText? id' = some text' ∧
    Text.number? text 0 0 = some q ∧ Text.number? text' 0 0 = some (⌊q⌋ : ℚ) := by
  have hfinite : ∀ x ∈ (Tensor.fill [1] 2.5).data, Binary64.isFinite x = true := by
    intro x hx
    rw [(Array.mem_replicate.1 hx).2]
    decide +kernel
  obtain ⟨hsucceeds, hstores⟩ := folded_number_iff (f := .floor) rfl {} .empty
    (show 0 ∉ (Tensor.fill [1] 2.5).shape by decide) hfinite
  obtain ⟨id, after, hplain⟩ := hsucceeds false
  obtain ⟨id', after', hfolding⟩ := hsucceeds true
  obtain ⟨-, text, text', -, -, -, htext, htext', -, -, hcells⟩ :=
    hstores none id after id' after' hplain hfolding
  obtain ⟨x, q, q', hx, hq, hq', hiff⟩ := hcells 0 (by decide) 0 (by decide)
  obtain rfl : 2.5 = x := Option.some.inj hx
  have hvalue : Binary64.value 2.5 = 5 / 2 := by
    have hsign : Binary64.negative 2.5 = false := by decide +kernel
    have hmagnitude : Binary64.magnitude 2.5 * 2 = 5 * Binary64.unitsPerOne := by decide +kernel
    rw [Binary64.value, hsign, signed_false,
      div_eq_div_iff Binary64.cast_unitsPerOne_pos.ne' two_ne_zero]
    exact_mod_cast hmagnitude
  have hkeeps : Elementwise.KeepsOff 4 .floor (Binary64.value 2.5) := by
    have hfloor : ⌊(5 / 2 : ℚ)⌋ = 2 := by norm_num
    rw [hvalue]
    show (5 / 2 : ℚ) < ⌊(5 / 2 : ℚ)⌋ + 1 - halfPlace 4
    rw [hfloor]
    norm_num [halfPlace]
  exact ⟨id, after, id', after', text, text', q, hplain, hfolding, htext, htext', hq,
    hq'.trans (congrArg some (hiff.2 hkeeps))⟩

/-- Rounding `0.99999` to one before the greatest integer below is taken gives one, and taking the
greatest integer first gives zero. -/
theorem folded_floor_differs : ∃ id after id' after' text text',
    ((({} : Options).foldingSettings false).perform
      (.unary (.apply .floor) (.literal (.fill [1] 0.99999)) none)).Yields .empty id after ∧
    ((({} : Options).foldingSettings true).perform
      (.unary (.apply .floor) (.literal (.fill [1] 0.99999)) none)).Yields .empty id' after' ∧
    after.initialText? 0 = some text ∧ after'.initialText? id' = some text' ∧
    Text.number? text 0 0 = some 1 ∧ Text.number? text' 0 0 = some 0 ∧
    (0 : ℚ) ≠ ⌊(1 : ℚ)⌋ := by
  have hempty : 0 ∉ (Tensor.fill [1] 0.99999).extents := by decide
  obtain ⟨id, after, hplain⟩ := Settings.unnamed_succeeds {} false .floor hempty .empty
  obtain ⟨id', after', hfolding⟩ := Settings.unnamed_succeeds {} true .floor hempty .empty
  obtain ⟨-, literal, -, -, -, hliteral, htext⟩ := Settings.plain_stores hplain
  obtain ⟨literal', hliteral', htext'⟩ := Settings.folding_stores hfolding
  have hnumber : Text.number? literal.text 0 0 = some (Binary64.rounded 4 0.99999) :=
    Tensor.number?_literal hliteral (by decide) (by decide) rfl (by decide +kernel)
  have hnumber' : Text.number? literal'.text 0 0 =
      some (Binary64.rounded 4 (Binary64.floor 0.99999)) := by
    refine Tensor.number?_literal hliteral' (by decide) (by decide) ?_ (by decide +kernel)
    show ((Array.replicate 1 (0.99999 : Float)).map Binary64.floor)[0]? = _
    rw [Array.getElem?_map]
    rfl
  have hone : Binary64.fixed 4 0.99999 = ⟨false, 1, [0, 0, 0, 0]⟩ := by decide +kernel
  have hzero : Binary64.fixed 4 (Binary64.floor 0.99999) = ⟨false, 0, [0, 0, 0, 0]⟩ := by
    decide +kernel
  refine ⟨id, after, id', after', _, _, hplain, hfolding, htext, htext', ?_, ?_, ?_⟩
  · rw [hnumber, Binary64.rounded, hone]
    norm_num [Decimal.value, Decimal.scaled, ofDigits]
  · rw [hnumber', Binary64.rounded, hzero]
    norm_num [Decimal.value, Decimal.scaled, ofDigits]
  · norm_num

end ComputeGraph
