import ComputeGraph.Operator.Registry
import ComputeGraph.Proofs.Outcome

/-!
# Appending a node

What it takes for a node to be appended, and what the graph is then: by itself, and as the answer to
a request, where the operator of the kind is consulted first.

* `Graph.snoc` — the graph with one more node and its name in the index;
* **`Graph.push_eq_ok`** — a node is appended iff its id is the next one, its operands exist and its
  name is free;
* **`Registry.append_eq_ok`** — a request is granted iff its operator accepts it, its operands
  exist, its shape is found or may stay open, and its name is free;
* **`Registry.append_eq_error`** — the causes for which a request is refused.
-/

namespace ComputeGraph

/-- What the index of names holds for a node. -/
def Node.entry? (node : Node) : Option (String × NodeId) :=
  node.name.map fun name => (name, node.id)

/-- What stands at a place of a list with one more member. -/
theorem getElem?_concat_eq_some {α : Type} {xs : List α} {x y : α} {j : Nat}
    (h : (xs ++ [x])[j]? = some y) : xs[j]? = some y ∨ j = xs.length ∧ y = x := by
  rw [List.getElem?_append] at h
  split at h
  · exact .inl h
  · rename_i hge
    obtain ⟨hj, hy⟩ := List.getElem?_eq_some_iff.1 h
    rw [List.length_singleton] at hj
    rw [List.getElem_singleton] at hy
    exact .inr ⟨by omega, hy.symm⟩

namespace Graph

/-- The graph with one more node, and its name in the index. -/
def snoc (graph : Graph) (node : Node) : Graph :=
  ⟨graph.nodes ++ [node], node.entry?.toList ++ graph.names⟩

/-- Whether a node could be given a name, or stay without one. -/
def IsFree (graph : Graph) (name : Option String) : Prop :=
  ∀ n, name = some n → graph.hasName n = false

/-- The node with an id has a known shape. -/
def HasShape (graph : Graph) (id : NodeId) (shape : Extents) : Prop :=
  ∃ node, graph.node? id = some node ∧ node.hostShape = some shape

theorem get_eq_ok {graph : Graph} {id : NodeId} {node : Node} :
    graph.get id = .ok node ↔ graph.node? id = some node := by
  unfold get
  cases graph.node? id with
  | none => simp
  | some node' => simp

theorem get_eq_error {graph : Graph} {id : NodeId} {e : Error} :
    graph.get id = .error e ↔ graph.node? id = none ∧ e = .noSuchNode id := by
  unfold get
  cases graph.node? id with
  | none => simp [eq_comm]
  | some node' => simp

theorem node?_eq_none {graph : Graph} {id : NodeId} : graph.node? id = none ↔ graph.size ≤ id :=
  List.getElem?_eq_none_iff

theorem lt_size_of_node? {graph : Graph} {id : NodeId} {node : Node}
    (h : graph.node? id = some node) : id < graph.size :=
  (List.getElem?_eq_some_iff.1 h).1

theorem knownShape_eq_ok {graph : Graph} {id : NodeId} {kind : Kind} {shape : Extents} :
    graph.knownShape id kind = .ok shape ↔ graph.HasShape id shape := by
  unfold knownShape HasShape
  constructor
  · intro h
    obtain ⟨node, hnode, h⟩ := except_bind_eq_ok.1 h
    cases hshape : node.hostShape with
    | none =>
      rw [hshape] at h
      cases h
    | some shape' =>
      rw [hshape] at h
      exact ⟨node, get_eq_ok.1 hnode, Except.ok.inj h ▸ hshape⟩
  · intro h
    obtain ⟨node, hnode, hshape⟩ := h
    refine except_bind_eq_ok.2 ⟨node, get_eq_ok.2 hnode, ?_⟩
    rw [hshape]
    rfl

theorem isFree_none (graph : Graph) : graph.IsFree none :=
  fun _ h => nomatch h

theorem isFree_or_used (graph : Graph) (name : Option String) :
    graph.IsFree name ∨ ∃ n, name = some n ∧ graph.hasName n = true := by
  cases name with
  | none => exact .inl fun n h => nomatch h
  | some n =>
    cases hused : graph.hasName n with
    | true => exact .inr ⟨n, rfl, hused⟩
    | false => exact .inl fun m h => Option.some.inj h ▸ hused

/-- What a graph has is in every graph with more nodes. -/
theorem node?_of_extends {graph after : Graph} (h : graph.nodes <+: after.nodes) {id : NodeId}
    {node : Node} (hnode : graph.node? id = some node) : after.node? id = some node := by
  obtain ⟨nodes, hnodes⟩ := h
  unfold node?
  rw [← hnodes, List.getElem?_append_left (lt_size_of_node? hnode)]
  exact hnode

theorem HasShape.of_extends {graph after : Graph} (h : graph.nodes <+: after.nodes) {id : NodeId}
    {shape : Extents} (hshape : graph.HasShape id shape) : after.HasShape id shape := by
  obtain ⟨node, hnode, hshape⟩ := hshape
  exact ⟨node, node?_of_extends h hnode, hshape⟩

theorem HasShape.unique {graph : Graph} {id : NodeId} {shape shape' : Extents}
    (h : graph.HasShape id shape) (h' : graph.HasShape id shape') : shape = shape' := by
  obtain ⟨node, hnode, hshape⟩ := h
  obtain ⟨node', hnode', hshape'⟩ := h'
  rw [hnode] at hnode'
  cases hnode'
  exact Option.some.inj (hshape.symm.trans hshape')

/-! ### The graph with one more node -/

/-- The names in use once a node is appended. -/
theorem hasName_snoc (graph : Graph) (node : Node) (name : String) :
    (graph.snoc node).hasName name = (decide (node.name = some name) || graph.hasName name) := by
  unfold hasName snoc Node.entry?
  cases node.name with
  | none => rfl
  | some n =>
    show (((n, node.id) :: graph.names).lookup name).isSome = _
    rw [List.lookup_cons]
    by_cases h : name = n
    · simp [h]
    · have hbeq : (name == n) = false := by simpa using h
      simp [hbeq, Ne.symm h]

theorem node?_snoc_size (graph : Graph) (node : Node) :
    (graph.snoc node).node? graph.size = some node :=
  List.getElem?_concat_length

/-- The nodes of a graph with one more node. -/
theorem node?_snoc_eq_some {graph : Graph} {node p : Node} {i : NodeId}
    (h : (graph.snoc node).node? i = some p) :
    graph.node? i = some p ∨ i = graph.size ∧ p = node :=
  getElem?_concat_eq_some h

theorem nodes_prefix_snoc (graph : Graph) (node : Node) :
    graph.nodes <+: (graph.snoc node).nodes :=
  List.prefix_append _ _

/-! ### Appending as such -/

theorem indexName_eq_ok {graph : Graph} {node : Node} {names : List (String × NodeId)} :
    graph.indexName node = .ok names ↔
      graph.IsFree node.name ∧ names = node.entry?.toList ++ graph.names := by
  unfold indexName Node.entry? IsFree
  cases node.name with
  | none =>
    show Except.ok graph.names = .ok names ↔ _
    rw [Except.ok.injEq]
    exact ⟨fun h => ⟨fun n hn => (Option.some_ne_none n hn.symm).elim, h.symm⟩, fun h => h.2.symm⟩
  | some name =>
    cases hused : graph.hasName name with
    | true =>
      constructor
      · intro h
        simp [hused] at h
      · intro h
        obtain ⟨hfree, -⟩ := h
        rw [hfree name rfl] at hused
        cases hused
    | false =>
      show (if graph.hasName name then _ else _) = _ ↔ _
      rw [hused, if_neg Bool.false_ne_true, Except.ok.injEq]
      constructor
      · intro h
        subst h
        exact ⟨fun n hn => Option.some.inj hn ▸ hused, rfl⟩
      · intro h
        obtain ⟨-, rfl⟩ := h
        rfl

theorem indexName_eq_error {graph : Graph} {node : Node} {e : Error} :
    graph.indexName node = .error e ↔
      ∃ name, node.name = some name ∧ graph.hasName name = true ∧ e = .nameInUse name := by
  unfold indexName
  cases node.name with
  | none => simp
  | some name =>
    show (if graph.hasName name then _ else _) = _ ↔ _
    cases hused : graph.hasName name with
    | true =>
      rw [if_pos rfl, Except.error.injEq]
      constructor
      · intro h
        subst h
        exact ⟨name, rfl, hused, rfl⟩
      · intro h
        obtain ⟨n, hn, -, rfl⟩ := h
        rw [Option.some.inj hn]
    | false =>
      rw [if_neg Bool.false_ne_true]
      constructor
      · intro h
        cases h
      · intro h
        obtain ⟨n, hn, hused', -⟩ := h
        rw [← Option.some.inj hn, hused] at hused'
        cases hused'

/-- The operands of a node exist iff none of them is found to be missing. -/
theorem find?_missing_eq_none {graph : Graph} {inputs : List NodeId} :
    inputs.find? (graph.nextId ≤ ·) = none ↔ ∀ input ∈ inputs, input < graph.size := by
  rw [List.find?_eq_none]
  constructor
  · intro h input hinput
    exact Nat.lt_of_not_le fun hle => h input hinput (decide_eq_true hle)
  · intro h input hinput hle
    exact absurd (h input hinput) (Nat.not_lt.2 (of_decide_eq_true hle))

/-- **Appending a node.** -/
theorem push_eq_ok {graph after : Graph} {node : Node} :
    graph.push node = .ok after ↔
      node.id = graph.size ∧ (∀ input ∈ node.inputs, input < graph.size) ∧
        graph.IsFree node.name ∧ after = graph.snoc node := by
  rw [← find?_missing_eq_none]
  unfold push
  by_cases hid : node.id = graph.nextId
  · rw [if_neg (not_not.2 hid)]
    cases hmissing : node.inputs.find? (graph.nextId ≤ ·) with
    | some input => simp
    | none =>
      constructor
      · intro h
        obtain ⟨names, hnames, h⟩ := except_bind_eq_ok.1 h
        obtain ⟨hfree, rfl⟩ := indexName_eq_ok.1 hnames
        exact ⟨hid, rfl, hfree, (Except.ok.inj h).symm⟩
      · intro h
        obtain ⟨-, -, hfree, rfl⟩ := h
        exact except_bind_eq_ok.2 ⟨_, indexName_eq_ok.2 ⟨hfree, rfl⟩, rfl⟩
  · rw [if_pos hid]
    constructor
    · intro h
      cases h
    · intro h
      obtain ⟨h, -⟩ := h
      exact absurd h hid

/-- A node with the next id and operands that exist is refused only for its name. -/
theorem push_eq_error {graph : Graph} {node : Node} {e : Error} (hid : node.id = graph.size)
    (hinputs : ∀ input ∈ node.inputs, input < graph.size) :
    graph.push node = .error e ↔
      ∃ name, node.name = some name ∧ graph.hasName name = true ∧ e = .nameInUse name := by
  have hnone := find?_missing_eq_none.2 hinputs
  unfold push
  rw [if_neg (not_not.2 (show node.id = graph.nextId from hid)), hnone, ← indexName_eq_error]
  constructor
  · intro h
    rcases except_bind_eq_error.1 h with h | ⟨names, -, h⟩
    · exact h
    · cases h
  · intro h
    exact except_bind_eq_error.2 (.inl h)

/-! ### Shapes of operands -/

/-- The shapes of operands are found iff the operands exist. -/
theorem hostShapes_eq_ok {graph : Graph} {ids : List NodeId} {shapes : List (Option Extents)} :
    graph.hostShapes ids = .ok shapes ↔
      List.Forall₂ (fun id shape => ∃ node, graph.node? id = some node ∧ node.hostShape = shape)
        ids shapes := by
  unfold hostShapes
  rw [mapM_eq_ok]
  have hmember : ∀ id shape, (graph.get id).map Node.hostShape = .ok shape ↔
      ∃ node, graph.node? id = some node ∧ node.hostShape = shape := by
    intro id shape
    rw [except_map_eq_ok]
    simp only [get_eq_ok]
  simp only [hmember]

theorem lt_size_of_hostShapes {graph : Graph} {ids : List NodeId} {shapes : List (Option Extents)}
    (h : graph.hostShapes ids = .ok shapes) : ∀ id ∈ ids, id < graph.size := by
  have hall := hostShapes_eq_ok.1 h
  clear h
  induction hall with
  | nil => simp
  | cons hhead _ ih =>
    obtain ⟨node, hnode, -⟩ := hhead
    intro id hid
    rcases List.mem_cons.1 hid with rfl | hid
    · exact lt_size_of_node? hnode
    · exact ih id hid

/-- The search for the shapes of operands stops at the first operand that does not exist. -/
theorem hostShapes_eq_error {graph : Graph} {ids : List NodeId} {e : Error} :
    graph.hostShapes ids = .error e ↔
      ∃ id, ids.find? (graph.size ≤ ·) = some id ∧ e = .noSuchNode id := by
  have hexists : ∀ id, (∃ shape, (graph.get id).map Node.hostShape = .ok shape) ↔
      id < graph.size := by
    intro id
    rw [← Nat.not_le, ← node?_eq_none, ← Ne, Option.ne_none_iff_exists']
    simp only [except_map_eq_ok, get_eq_ok]
    exact ⟨fun ⟨_, node, hnode, _⟩ => ⟨node, hnode⟩, fun ⟨node, hnode⟩ => ⟨_, node, hnode, rfl⟩⟩
  have hmissing : ∀ id, (graph.get id).map Node.hostShape = .error e ↔
      graph.size ≤ id ∧ e = .noSuchNode id := by
    intro id
    rw [except_map_eq_error, get_eq_error, node?_eq_none]
  unfold hostShapes
  rw [mapM_eq_error]
  simp only [hexists, hmissing, List.find?_eq_some_iff_append, decide_eq_true_eq,
    Bool.not_eq_true', decide_eq_false_iff_not, Nat.not_le]
  constructor
  · intro h
    obtain ⟨before, id, after, hids, hbefore, hid, he⟩ := h
    exact ⟨id, ⟨hid, before, after, hids, hbefore⟩, he⟩
  · intro h
    obtain ⟨id, ⟨hid, before, after, hids, hbefore⟩, he⟩ := h
    exact ⟨before, id, after, hids, hbefore, hid, he⟩

end Graph

/-! ### Granting a request -/

/-- An operator accepts the requests of its kind with all operands and attributes that it needs. -/
theorem Operator.validate_eq_ok {operator : Operator} {request : Request} :
    operator.validate request = .ok () ↔
      request.kind = operator.kind ∧ request.inputs.length = operator.arity ∧
        operator.missing? request = none := by
  unfold validate
  by_cases hkind : request.kind = operator.kind
  · rw [if_neg (not_not.2 hkind)]
    by_cases harity : request.inputs.length = operator.arity
    · rw [if_neg (not_not.2 harity)]
      cases operator.missing? request with
      | none => simp [hkind, harity]
      | some key => simp
    · rw [if_pos harity]
      simp [harity]
  · rw [if_pos hkind]
    simp [hkind]

/-- An operator refuses a request for the first of its demands that is not met. -/
theorem Operator.validate_eq_error {operator : Operator} {request : Request} {e : Error} :
    operator.validate request = .error e ↔
      (request.kind ≠ operator.kind ∧ e = .wrongKind operator.kind request.kind) ∨
        (request.kind = operator.kind ∧
          ((request.inputs.length ≠ operator.arity ∧
              e = .wrongArity operator.kind operator.arity request.inputs.length) ∨
            (request.inputs.length = operator.arity ∧ ∃ key, operator.missing? request = some key ∧
              e = .missingAttribute operator.kind key))) := by
  unfold validate
  by_cases hkind : request.kind = operator.kind
  · rw [if_neg (not_not.2 hkind)]
    by_cases harity : request.inputs.length = operator.arity
    · rw [if_neg (not_not.2 harity)]
      cases operator.missing? request with
      | none => simp [hkind, harity]
      | some key => simp [hkind, harity, eq_comm]
    · rw [if_pos harity]
      simp [hkind, harity, eq_comm]
  · rw [if_pos hkind]
    simp [hkind, eq_comm]

theorem Operator.inferShape_of_eq_none {operator : Operator} {request : Request}
    {shapes : List (Option Extents)} (h : request.hostShape = none) :
    operator.inferShape request shapes = operator.rule.infer shapes := by
  unfold inferShape
  rw [h]

theorem Operator.inferShape_of_eq_some {operator : Operator} {request : Request}
    {shapes : List (Option Extents)} {shape : Extents} (h : request.hostShape = some shape) :
    operator.inferShape request shapes = .ok (some shape) := by
  unfold inferShape
  rw [h]

namespace Registry

theorem get_eq_ok {registry : Registry} {kind : Kind} {operator : Operator} :
    registry.get kind = .ok operator ↔ registry.find? kind = some operator := by
  unfold get
  cases registry.find? kind with
  | none => simp
  | some operator' => simp

theorem get_eq_error {registry : Registry} {kind : Kind} {e : Error} :
    registry.get kind = .error e ↔ registry.find? kind = none ∧ e = .notRegistered kind := by
  unfold get
  cases registry.find? kind with
  | none => simp [eq_comm]
  | some operator' => simp

/-- **Granting a request.** The graph gets the node of the request with the shape that is found, and
nothing else changes. -/
theorem append_eq_ok {registry : Registry} {strict : Bool} {graph after : Graph}
    {request : Request} {id : NodeId} :
    (registry.append strict graph request).result = .ok (id, after) ↔
      ∃ operator shapes shape,
        registry.find? request.kind = some operator ∧
        operator.validate request = .ok () ∧
        graph.hostShapes request.inputs = .ok shapes ∧
        (operator.inferShape request shapes = .ok shape ∨
          (∃ e, operator.inferShape request shapes = .error e) ∧ strict = false ∧ shape = none) ∧
        graph.IsFree request.name ∧
        id = graph.size ∧ after = graph.snoc (request.toNode graph shape) := by
  constructor
  · intro h
    obtain ⟨operator, hoperator, h⟩ := Attempt.bind_eq_ok.1 h
    obtain ⟨⟨⟩, hvalid, h⟩ := Attempt.bind_eq_ok.1 h
    obtain ⟨shapes, hshapes, h⟩ := Attempt.bind_eq_ok.1 h
    obtain ⟨shape, hshape, h⟩ := Attempt.bind_eq_ok.1 h
    obtain ⟨pushed, hpush, h⟩ := Attempt.bind_eq_ok.1 h
    rw [Attempt.result_record_bind] at h
    obtain ⟨-, -, hfree, rfl⟩ := Graph.push_eq_ok.1 hpush
    cases h
    exact ⟨operator, shapes, shape, get_eq_ok.1 hoperator, hvalid, hshapes,
      Attempt.shapeOrUnknown_eq_ok.1 hshape, hfree, rfl, rfl⟩
  · intro h
    obtain ⟨operator, shapes, shape, hoperator, hvalid, hshapes, hshape, hfree, rfl, rfl⟩ := h
    refine Attempt.bind_eq_ok.2 ⟨operator, get_eq_ok.2 hoperator, ?_⟩
    refine Attempt.bind_eq_ok.2 ⟨(), hvalid, ?_⟩
    refine Attempt.bind_eq_ok.2 ⟨shapes, hshapes, ?_⟩
    refine Attempt.bind_eq_ok.2 ⟨shape, Attempt.shapeOrUnknown_eq_ok.2 hshape, ?_⟩
    have hpush : graph.push (request.toNode graph shape) =
        .ok (graph.snoc (request.toNode graph shape)) :=
      Graph.push_eq_ok.2 ⟨rfl, Graph.lt_size_of_hostShapes hshapes, hfree, rfl⟩
    exact Attempt.bind_eq_ok.2 ⟨_, hpush, rfl⟩

/-- **Refusing a request.** The causes, each of which presupposes that those before it do not
apply. -/
theorem append_eq_error {registry : Registry} {strict : Bool} {graph : Graph} {request : Request}
    {e : Error} (h : (registry.append strict graph request).result = .error e) :
    (registry.find? request.kind = none ∧ e = .notRegistered request.kind) ∨
      ∃ operator, registry.find? request.kind = some operator ∧
        (operator.validate request = .error e ∨
          operator.validate request = .ok () ∧
            ((∃ id, request.inputs.find? (graph.size ≤ ·) = some id ∧ e = .noSuchNode id) ∨
              ∃ shapes, graph.hostShapes request.inputs = .ok shapes ∧
                (operator.inferShape request shapes = .error e ∧ strict = true ∨
                  (strict = true → ∃ shape, operator.inferShape request shapes = .ok shape) ∧
                    ∃ name, request.name = some name ∧ graph.hasName name = true ∧
                      e = .nameInUse name))) := by
  rcases Attempt.bind_eq_error.1 h with h | ⟨operator, hoperator, h⟩
  · exact .inl (get_eq_error.1 h)
  refine .inr ⟨operator, get_eq_ok.1 hoperator, ?_⟩
  rcases Attempt.bind_eq_error.1 h with h | ⟨⟨⟩, hvalid, h⟩
  · exact .inl h
  refine .inr ⟨hvalid, ?_⟩
  rcases Attempt.bind_eq_error.1 h with h | ⟨shapes, hshapes, h⟩
  · exact .inl (Graph.hostShapes_eq_error.1 h)
  rw [Attempt.result_lift] at hshapes
  refine .inr ⟨shapes, hshapes, ?_⟩
  rcases Attempt.bind_eq_error.1 h with h | ⟨shape, hshape, h⟩
  · exact .inl (Attempt.shapeOrUnknown_eq_error.1 h)
  refine .inr ⟨?_, ?_⟩
  · intro hstrict
    rcases Attempt.shapeOrUnknown_eq_ok.1 hshape with hfound | ⟨-, hlenient, -⟩
    · exact ⟨shape, hfound⟩
    · rw [hstrict] at hlenient
      cases hlenient
  · rcases Attempt.bind_eq_error.1 h with h | ⟨pushed, -, h⟩
    · exact (Graph.push_eq_error rfl (Graph.lt_size_of_hostShapes hshapes)).1 h
    · rw [Attempt.result_record_bind] at h
      cases h

end Registry

end ComputeGraph
