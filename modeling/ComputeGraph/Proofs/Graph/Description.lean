import ComputeGraph.Graph.Description
import ComputeGraph.Proofs.Graph.WellFormed
import ComputeGraph.Proofs.Json.Meaning
import ComputeGraph.Proofs.Shape.Json

/-!
# What descriptions of graphs say

The description of a graph is read back as a document that says everything about the nodes but their
doubles. The only graphs without a description are those with a path that is no text, and a path can
be such a one in any node.

* `IsUtf8` — the text of some bytes;
* `Json.IsAttribute`, `Json.IsNode`, `Json.IsGraph` — what the parts of a description say;
* `Node.HasForeignPath`, `Graph.HasForeignPath` — a path is no text;
* `isNode_of_toJson?` — the description of a node says what the node is;
* **`description_faithful`** — when a reachable graph is described, and what its description says.
-/

namespace ComputeGraph

open Json

/-- The bytes are those of the text in UTF-8. -/
def IsUtf8 (bytes : List UInt8) (text : String) : Prop :=
  text.toUTF8 = ⟨bytes.toArray⟩

/-! ### What is said -/

namespace Json

/-- The document is the id of a node. -/
def IsId (document : Json Spelling) (id : NodeId) : Prop :=
  document.IsInt id

/-- The document is the value of the attribute, of whatever type. A double is a number or, if it is
not finite, `null`. -/
def IsAttribute (document : Json Spelling) : Attribute → Prop
  | .int value => document.IsInt value
  | .float value =>
    if Binary64.isFinite value then ∃ n, document = .number n else document = .null
  | .bool value => document = .bool value
  | .text value => document.IsText value
  | .shape (.scalar extent) => document.IsExtent extent
  | .shape (.dims extents) => document.IsArrayOf IsExtent extents
  | .axis value => document.IsInt value.number
  | .node id => document.IsId id
  | .path bytes => ∃ text, IsUtf8 bytes text ∧ document.IsText text
  | .literal value => document.IsText value

/-- The document is an object with all that a node has, each under its key. -/
def IsNode (document : Json Spelling) (node : Node) : Prop :=
  document.IsObjectOf (fun value claim => claim value)
    [("id", (IsId · node.id)),
      ("name", (IsOptionOf IsText · node.name)),
      ("kind", (IsText · node.kind.name)),
      ("inputs", (IsArrayOf IsId · node.inputs)),
      ("attributes", (IsObjectOf IsAttribute · node.attributes.entries)),
      ("host_shape", (IsOptionOf (IsArrayOf IsExtent) · node.hostShape))]

/-- The document is an object with the nodes of the graph in order under its only key. -/
def IsGraph (document : Json Spelling) (graph : Graph) : Prop :=
  document.IsObjectOf (IsArrayOf IsNode) [("nodes", graph.nodes)]

end Json

/-- A path among the attributes of the node is not in UTF-8. -/
def Node.HasForeignPath (node : Node) : Prop :=
  ∃ key bytes, node.attributes.find? key = some (.path bytes) ∧ ∀ text, ¬ IsUtf8 bytes text

/-- A path in the graph is not in UTF-8. -/
def Graph.HasForeignPath (graph : Graph) : Prop :=
  ∃ node ∈ graph.nodes, node.HasForeignPath

/-! ### Texts of bytes -/

theorem fromUTF8?_eq_some_iff {bytes : List UInt8} {text : String} :
    String.fromUTF8? ⟨bytes.toArray⟩ = some text ↔ IsUtf8 bytes text := by
  unfold String.fromUTF8? IsUtf8
  constructor
  · intro h
    split at h
    · cases h
      rfl
    · cases h
  · intro h
    rw [← h]
    exact dif_pos text.isValidUTF8

theorem fromUTF8?_eq_none_iff {bytes : List UInt8} :
    String.fromUTF8? ⟨bytes.toArray⟩ = none ↔ ∀ text, ¬ IsUtf8 bytes text := by
  simp only [Option.eq_none_iff_forall_ne_some, ne_eq, fromUTF8?_eq_some_iff]

/-! ### Attributes -/

theorem isExtent_map_ofNat (n : UInt64) :
    ((ofNat n.toNat : Json (List Char)).map spell).IsExtent n :=
  ⟨_, rfl, Number.isWord_ofNat n⟩

theorem isArrayOf_extents (extents : Extents) :
    (extents.toJson.map spell).IsArrayOf IsExtent extents :=
  isArrayOf_map isExtent_map_ofNat extents

namespace Attribute

/-- **The document of an attribute** says its value. -/
theorem isAttribute_of_toJson? {a : Attribute} {value : Json (List Char)}
    (h : a.toJson? = some value) : (value.map spell).IsAttribute a := by
  cases a with
  | int value =>
    cases h
    exact isInt_ofInt value
  | float value =>
    cases h
    show if Binary64.isFinite value then _ else _
    unfold ofDouble
    split
    · exact ⟨_, rfl⟩
    · rfl
  | bool value =>
    cases h
    rfl
  | text value =>
    cases h
    exact isText_string value
  | shape value =>
    cases h
    cases value with
    | scalar extent => exact isExtent_map_ofNat extent
    | dims extents => exact isArrayOf_extents extents
  | axis value =>
    cases h
    exact isInt_ofNat value.number
  | node id =>
    cases h
    exact isInt_ofNat id
  | path bytes =>
    obtain ⟨text, htext, rfl⟩ := Option.map_eq_some_iff.1 h
    exact ⟨text, fromUTF8?_eq_some_iff.1 htext, isText_string text⟩
  | literal value =>
    cases h
    exact isText_string value

/-- **Only a path** can be without a document, if it is no text. -/
theorem toJson?_eq_none_iff {a : Attribute} :
    a.toJson? = none ↔ ∃ bytes, a = .path bytes ∧ ∀ text, ¬ IsUtf8 bytes text := by
  cases a with
  | path bytes => simp [toJson?, fromUTF8?_eq_none_iff]
  | _ => simp [toJson?]

end Attribute

/-! ### Nodes -/

theorem isObjectOf_of_toJson? {attributes : Attributes} {value : Json (List Char)}
    (h : attributes.toJson? = some value) :
    (value.map spell).IsObjectOf IsAttribute attributes.entries := by
  obtain ⟨members, hmembers, rfl⟩ := Option.map_eq_some_iff.1 h
  refine isObjectOf_object ((mapM_eq_some.1 hmembers).flip.imp fun member entry hentry => ?_)
  obtain ⟨document, hdocument, rfl⟩ := Option.map_eq_some_iff.1 hentry
  exact ⟨rfl, Attribute.isAttribute_of_toJson? hdocument⟩

/-- **The document of a node** says what the node is. -/
theorem isNode_of_toJson? {node : Node} {value : Json (List Char)}
    (h : node.toJson? = some value) : (value.map spell).IsNode node := by
  obtain ⟨attributes, hattributes, rfl⟩ := Option.map_eq_some_iff.1 h
  refine isObjectOf_object ?_
  refine .cons ⟨rfl, isInt_ofNat node.id⟩ ?_
  refine .cons ⟨rfl, isOptionOf_ofOption isText_string node.name⟩ ?_
  refine .cons ⟨rfl, isText_string node.kind.name⟩ ?_
  refine .cons ⟨rfl, isArrayOf_map isInt_ofNat node.inputs⟩ ?_
  refine .cons ⟨rfl, isObjectOf_of_toJson? hattributes⟩ ?_
  exact .cons ⟨rfl, isOptionOf_ofOption isArrayOf_extents node.hostShape⟩ .nil

/-- A node is without a document if one of its paths is no text. -/
theorem Node.toJson?_eq_none_iff {node : Node} :
    node.toJson? = none ↔ node.HasForeignPath := by
  have hentry : ∀ e : String × Attribute, Attributes.entryToJson? e = none ↔
      ∃ bytes, e.2 = .path bytes ∧ ∀ text, ¬ IsUtf8 bytes text := by
    intro e
    rw [← Attribute.toJson?_eq_none_iff]
    exact Option.map_eq_none_iff
  have hattributes : node.toJson? = none ↔
      ∃ e ∈ node.attributes.entries, Attributes.entryToJson? e = none := by
    rw [← mapM_eq_none]
    unfold toJson? Attributes.toJson?
    rw [Option.map_eq_none_iff, Option.map_eq_none_iff]
  rw [hattributes]
  unfold HasForeignPath
  simp only [hentry, Attributes.find?_eq_some_iff]
  constructor
  · intro h
    obtain ⟨⟨key, value⟩, he, bytes, rfl, hbytes⟩ := h
    exact ⟨key, bytes, he, hbytes⟩
  · intro h
    obtain ⟨key, bytes, he, hbytes⟩ := h
    exact ⟨_, he, bytes, rfl, hbytes⟩

/-! ### Graphs -/

namespace Graph

variable {graph : Graph}

/-- **A graph is without a description** iff it has a foreign path, and then for this reason. -/
theorem describe_eq_error_iff {e : Error} :
    graph.describe = .error e ↔ e = .unwritable ∧ graph.HasForeignPath := by
  have hnone : graph.toJson? = none ↔ graph.HasForeignPath := by
    unfold HasForeignPath toJson?
    rw [Option.map_eq_none_iff, mapM_eq_none]
    simp only [Node.toJson?_eq_none_iff]
  rw [← hnone]
  unfold describe
  cases graph.toJson? with
  | none => simp [eq_comm]
  | some value => simp

/-- **A description** is read back, and says what the graph is. -/
theorem isGraph_of_describe {text : String} (h : graph.describe = .ok text) :
    ∃ document, read? text = some document ∧ document.IsGraph graph := by
  unfold describe at h
  split at h
  · rename_i description hdescription
    cases h
    obtain ⟨nodes, hnodes, rfl⟩ := Option.map_eq_some_iff.1 hdescription
    have hall : List.Forall₂ (fun value node => (Json.map spell value).IsNode node) nodes
        graph.nodes :=
      (mapM_eq_some.1 hnodes).flip.imp fun _ _ => isNode_of_toJson?
    exact ⟨_, read?_pretty _, isObjectOf_object (.cons ⟨rfl, isArrayOf_array hall⟩ .nil)⟩
  · cases h

end Graph

/-- **Descriptions of reachable graphs.** The nodes are listed in the order of their ids, which
count them. A graph cannot be described iff one of its paths is no text. In every other case the
text is read back as an object with the nodes under its only key, and says of each node its id, its
name, its kind, its operands, its attributes with their values, except for doubles, and its
shape. -/
theorem description_faithful {graph : Graph} (h : graph.Reachable) :
    graph.nodes.map Node.id = List.range graph.size ∧
      (∀ e, graph.describe = .error e ↔ e = .unwritable ∧ graph.HasForeignPath) ∧
      Error.unwritable.category = .serialization ∧
      (¬ graph.HasForeignPath → ∃ text document, graph.describe = .ok text ∧
        read? text = some document ∧ document.IsGraph graph) := by
  refine ⟨h.wellFormed.map_id, fun _ => Graph.describe_eq_error_iff, rfl, fun hpaths => ?_⟩
  cases hdescribe : graph.describe with
  | error e => exact absurd (Graph.describe_eq_error_iff.1 hdescribe).2 hpaths
  | ok text =>
    obtain ⟨document, hread, hgraph⟩ := Graph.isGraph_of_describe hdescribe
    exact ⟨text, document, rfl, hread, hgraph⟩

/-- A path behind an input. A text is read back, and a byte that begins no character is refused. -/
theorem description_faithful_path :
    let graph (path : List UInt8) := (Builder.runAll {}
      [.declare (.input (.scalar 2) none) (some "x\n"),
        .add { kind := .dynamicAxis, attributes := .ofList [("file", .path path)] }]).graph
    let file : List UInt8 := "é.bin".toUTF8.data.toList
    (∃ text document, (graph file).describe = .ok text ∧ read? text = some document ∧
        document.IsGraph (graph file)) ∧
      (graph [0xff]).describe = .error .unwritable := by
  intro graph file
  have hreachable (path : List UInt8) : (graph path).Reachable := Builder.reachable_runAll .empty _
  constructor
  · have hpaths : ¬ (graph file).HasForeignPath := by
      intro h
      obtain ⟨node, hnode, key, bytes, hfind, hbytes⟩ := h
      have hentry := Attributes.find?_eq_some_iff.1 hfind
      rcases List.mem_cons.1 hnode with rfl | hnode
      · cases List.mem_singleton.1 hentry
      · obtain rfl := List.mem_singleton.1 hnode
        cases List.mem_singleton.1 hentry
        exact hbytes "é.bin" rfl
    obtain ⟨-, -, -, hdescribed⟩ := description_faithful (hreachable file)
    exact hdescribed hpaths
  · obtain ⟨-, herror, -⟩ := description_faithful (hreachable [0xff])
    have hforeign : ∀ text, ¬ IsUtf8 [0xff] text := fromUTF8?_eq_none_iff.1 rfl
    exact (herror .unwritable).2
      ⟨rfl, _, List.mem_of_getElem? (i := 1) rfl, "file", _, rfl, hforeign⟩

end ComputeGraph
