import ComputeGraph.Proofs.Builder.Agreement
import ComputeGraph.Proofs.Builder.Comparison

/-!
# Calls that do not depend on each other

A call reads nothing of a graph but the nodes that it refers to and whether its name is in use. So
it does the same on a graph with further nodes: it appends the same nodes under other numbers. Two
calls that refer to nodes that exist before both of them can therefore be performed in either order.

* `Node.renumber` — a node under another number, with the nodes that it refers to renumbered;
* `Block`, `Block.comparison` — the nodes that a call appends to a graph, and, renumbered, to the
  graph with further nodes;
* **`perform_extend`** — a call on a graph with further nodes;
* `exchange`, `Graph.Renumbers` — two blocks of numbers exchanged, and graphs renumbered;
* **`calls_commute`** — two calls in either order.
-/

namespace ComputeGraph

/-! ### Other numbers -/

/-- The node under another number, with the nodes that it refers to renumbered as well. -/
def Node.renumber (refers : String → Bool) (f : NodeId → NodeId) (node : Node) : Node :=
  { node with
    id := f node.id
    inputs := node.inputs.map f
    attributes := node.attributes.rename refers f }

/-- All numbers that a node tells. -/
def Node.numbers (refers : String → Bool) (node : Node) : List NodeId :=
  node.id :: node.description.references refers

section Renumber

variable {refers : String → Bool} {f g : NodeId → NodeId} {node : Node}

theorem Node.renumber_congr (h : ∀ i ∈ node.numbers refers, f i = g i) :
    node.renumber refers f = node.renumber refers g := by
  obtain ⟨hid, hreferences⟩ := List.forall_mem_cons.1 h
  have hinputs : node.inputs.map f = node.inputs.map g :=
    List.map_congr_left fun i hi => hreferences i (List.mem_append_left _ hi)
  have hattributes : node.attributes.rename refers f = node.attributes.rename refers g :=
    Attributes.rename_congr fun i hi => hreferences i (List.mem_append_right _ hi)
  unfold renumber
  rw [hid, hinputs, hattributes]

theorem Node.renumber_renumber (node : Node) (f g : NodeId → NodeId) :
    (node.renumber refers f).renumber refers g = node.renumber refers (g ∘ f) := by
  unfold renumber
  rw [Attributes.rename_rename, List.map_map]
  rfl

theorem Node.renumber_eq_self (h : ∀ i ∈ node.numbers refers, f i = i) :
    node.renumber refers f = node := by
  have hid : node.renumber refers f = node.renumber refers fun i => i := renumber_congr h
  rw [hid]
  unfold renumber
  rw [List.map_id']
  exact congrArg (fun attributes => { node with attributes }) node.attributes.rename_id

end Renumber

/-- The number with room for `k` further ones behind the first `n`. -/
def shifted (n k i : Nat) : Nat :=
  if i < n then i else i + k

theorem shifted_of_lt {n i : Nat} (h : i < n) (k : Nat) : shifted n k i = i :=
  if_pos h

theorem shifted_add (n k j : Nat) : shifted n k (n + j) = n + k + j := by
  unfold shifted
  rw [if_neg (by omega)]
  omega

/-! ### The nodes that a call appends -/

/-- Nodes that can be appended to a graph by a call: they are unnamed or have the name of the call,
and refer to nodes of the graph or to each other. -/
structure Block (refers : String → Bool) (graph : Graph) (name : Option String) where
  nodes : List Node
  name_cases : ∀ p ∈ nodes, p.name = none ∨ p.name = name
  references_lt : ∀ p ∈ nodes, ∀ i ∈ p.description.references refers,
    i < graph.size + nodes.length

namespace Block

variable {refers : String → Bool} {graph : Graph} {name : Option String} {extra : List Node}
  {w : Block refers graph name} {i j : NodeId}

/-- The graph with the block appended. -/
def left (w : Block refers graph name) : Graph :=
  graph.extend w.nodes

/-- The graph with further nodes, and with the block appended to these. -/
def right (extra : List Node) (w : Block refers graph name) : Graph :=
  (graph.extend extra).extend
    (w.nodes.map (Node.renumber refers (shifted graph.size extra.length)))

/-- A node of the graph, or a node of known shape in the block. -/
def At (extra : List Node) (w : Block refers graph name) (i j : NodeId) : Prop :=
  j = shifted graph.size extra.length i ∧ (i < graph.size ∨ ∃ shape, w.left.HasShape i shape)

theorem node?_left_of_lt (h : i < graph.size) : w.left.node? i = graph.node? i :=
  graph.node?_extend_of_lt w.nodes h

theorem node?_right_of_lt (h : i < graph.size) : (w.right extra).node? i = graph.node? i := by
  have hlt : i < (graph.extend extra).size := by
    rw [Graph.size_extend]
    exact Nat.lt_add_right _ h
  unfold right
  rw [Graph.node?_extend_of_lt _ _ hlt, Graph.node?_extend_of_lt _ _ h]

theorem node?_right_of_lt_extend (h : i < (graph.extend extra).size) :
    (w.right extra).node? i = (graph.extend extra).node? i :=
  Graph.node?_extend_of_lt _ _ h

/-- The nodes of the block under their other numbers. -/
theorem node?_right_of_le (w : Block refers graph name) (extra : List Node) (h : graph.size ≤ i) :
    (w.right extra).node? (shifted graph.size extra.length i) =
      (w.left.node? i).map (Node.renumber refers (shifted graph.size extra.length)) := by
  obtain ⟨k, rfl⟩ := Nat.exists_eq_add_of_le h
  unfold left right
  rw [shifted_add, Graph.node?_extend_add, ← Graph.size_extend, Graph.node?_extend_add,
    List.getElem?_map]

/-- The nodes are the same, or both have the same known shape. -/
theorem cases_of_at (h : w.At extra i j) :
    (i = j ∧ w.left.get i = (w.right extra).get i) ∨
      ∃ p q shape, w.left.get i = .ok p ∧ (w.right extra).get j = .ok q ∧
        p.hostShape = some shape ∧ q.hostShape = some shape := by
  obtain ⟨rfl, hi⟩ := h
  by_cases hlt : i < graph.size
  · refine .inl ⟨(shifted_of_lt hlt _).symm, ?_⟩
    unfold Graph.get
    rw [node?_left_of_lt hlt, node?_right_of_lt hlt]
  · obtain ⟨shape, p, hp, hshape⟩ := hi.resolve_left hlt
    have hq := w.node?_right_of_le extra (Nat.le_of_not_lt hlt)
    rw [hp] at hq
    exact .inr ⟨p, _, shape, Graph.get_eq_ok.2 hp, Graph.get_eq_ok.2 hq, hshape, hshape⟩

theorem get_agree (h : w.At extra i j) :
    AgreeUpTo Eq (fun p q => p.hostShape = q.hostShape) (w.left.get i)
      ((w.right extra).get j) := by
  rcases cases_of_at h with ⟨rfl, hget⟩ | ⟨p, q, shape, hp, hq, hshape, hshape'⟩
  · rw [hget]
    exact (AgreeUpTo.same (fun _ => rfl) _).imp fun _ _ _ hpq => congrArg Node.hostShape hpq
  · rw [hp, hq]
    exact .ok (hshape.trans hshape'.symm)

theorem knownShape_agree (h : w.At extra i j) (kind : Kind) :
    AgreeUpTo Eq Eq (w.left.knownShape i kind) ((w.right extra).knownShape j kind) := by
  rcases cases_of_at h with ⟨rfl, hget⟩ | ⟨p, q, shape, hp, hq, hshape, hshape'⟩
  · unfold Graph.knownShape
    rw [hget]
    exact .same (fun _ => rfl) _
  · have hleft : w.left.knownShape i kind = .ok shape :=
      Graph.knownShape_eq_ok.2 ⟨p, Graph.get_eq_ok.1 hp, hshape⟩
    have hright : (w.right extra).knownShape j kind = .ok shape :=
      Graph.knownShape_eq_ok.2 ⟨q, Graph.get_eq_ok.1 hq, hshape'⟩
    rw [hleft, hright]
    exact .ok rfl

theorem requireDynamicAxis_agree (h : i < graph.size) :
    AgreeUpTo Eq Eq (w.left.requireDynamicAxis i) ((w.right extra).requireDynamicAxis i) := by
  have hget : w.left.get i = (w.right extra).get i := by
    unfold Graph.get
    rw [node?_left_of_lt h, node?_right_of_lt h]
  unfold Graph.requireDynamicAxis
  rw [hget]
  exact .same (fun _ => rfl) _

/-- The name is not the name of a further node. -/
def Avoids (extra : List Node) (name : Option String) : Prop :=
  ∀ n, name = some n → ∀ p ∈ extra, p.name ≠ some n

theorem hasName_right {n : String} (h : ∀ p ∈ extra, p.name ≠ some n) :
    (w.right extra).hasName n = w.left.hasName n := by
  have hextra : (extra.any fun p => decide (p.name = some n)) = false := by
    rw [List.any_eq_false]
    intro p hp
    simpa using h p hp
  unfold left right
  rw [Graph.hasName_extend, Graph.hasName_extend, Graph.hasName_extend, hextra, Bool.false_or,
    List.any_map]
  rfl

/-- A name that no further node has is free in both graphs or in neither. -/
theorem sameUse (w : Block refers graph name) {x : Option String} (h : Avoids extra x) :
    SameUse Eq w.left (w.right extra) x x := by
  rcases w.left.isFree_or_used x with hfree | ⟨n, hn, hused⟩
  · refine .inl ⟨hfree, fun n hn => ?_⟩
    rw [hasName_right (h n hn), hfree n hn]
  · refine .inr ⟨n, n, hn, hn, hused, ?_, rfl⟩
    rw [hasName_right (h n hn), hused]

theorem lt_of_at (h : w.At extra i j) : i < graph.size + w.nodes.length := by
  rcases h.2 with hlt | ⟨shape, p, hp, -⟩
  · exact Nat.lt_add_right _ hlt
  · rw [← Graph.size_extend]
    exact Graph.lt_size_of_node? hp

section Snoc

variable (w : Block refers graph name) (p : Node) (hname : p.name = none ∨ p.name = name)
  (h : ∀ i ∈ p.description.references refers, i < graph.size + w.nodes.length)

/-- The block with one more node. -/
def snoc : Block refers graph name where
  nodes := w.nodes ++ [p]
  name_cases := by
    intro q hq
    rcases List.mem_append.1 hq with hq | hq
    · exact w.name_cases q hq
    · rw [List.mem_singleton.1 hq]
      exact hname
  references_lt := by
    intro q hq i hi
    rw [List.length_append, ← Nat.add_assoc]
    rcases List.mem_append.1 hq with hq | hq
    · exact Nat.lt_add_right _ (w.references_lt q hq i hi)
    · rw [List.mem_singleton.1 hq] at hi
      exact Nat.lt_add_right _ (h i hi)

theorem left_snoc : (w.snoc p hname h).left = w.left.snoc p := by
  show graph.extend (w.nodes ++ [p]) = _
  rw [Graph.extend_append, Graph.extend_singleton]
  rfl

theorem right_snoc (extra : List Node) : (w.snoc p hname h).right extra =
    (w.right extra).snoc (p.renumber refers (shifted graph.size extra.length)) := by
  show (graph.extend extra).extend ((w.nodes ++ [p]).map _) = _
  rw [List.map_append, Graph.extend_append, List.map_singleton, Graph.extend_singleton]
  rfl

end Snoc

theorem size_right (w : Block refers graph name) :
    (w.right extra).size = shifted graph.size extra.length w.left.size := by
  unfold left right
  rw [Graph.size_extend, Graph.size_extend, Graph.size_extend, shifted_add, List.length_map]

variable {settings : Settings}

/-- Without a prefix for names, a builder can be compared with itself on the graph with further
nodes. -/
def comparison (hstem : settings.options.namePrefix = none) (hrefers : refers "dynamicAxis" = true)
    (graph : Graph) (havoids : Avoids extra name) :
    Comparison refers (Block refers graph name) where
  left := left
  right := right extra
  Extends := fun w after => w.nodes <+: after.nodes
  refl := fun w => List.prefix_refl w.nodes
  trans := List.IsPrefix.trans
  errors := Eq
  errors_refl := fun _ => rfl
  leftSettings := settings
  rightSettings := settings
  registry_eq := rfl
  strict_eq := rfl
  refers_axis := hrefers
  Ref := fun _ i j => j = i ∧ i < graph.size
  At := At extra
  Made := fun w i j => j = shifted graph.size extra.length i ∧ i < w.left.size
  Named := fun x => x = none ∨ x = name
  ref_mono := fun _ h => h
  at_mono := by
    intro w after i j hextends h
    refine ⟨h.1, h.2.imp_right fun hshape => ?_⟩
    obtain ⟨shape, hshape⟩ := hshape
    obtain ⟨new, hnew⟩ := hextends
    have hnodes : w.left.nodes <+: after.left.nodes := ⟨new, by
      show graph.nodes ++ w.nodes ++ new = graph.nodes ++ after.nodes
      rw [List.append_assoc, hnew]⟩
    exact ⟨shape, hshape.of_extends hnodes⟩
  at_of_ref := by
    intro w i j h
    obtain ⟨rfl, hlt⟩ := h
    exact ⟨(shifted_of_lt hlt _).symm, .inl hlt⟩
  at_of_made := fun h hshape => ⟨h.1, .inr ⟨_, hshape⟩⟩
  named_none := .inl rfl
  get_agree := get_agree
  shape_agree := knownShape_agree
  axis_agree := by
    intro w i j h
    obtain ⟨rfl, hlt⟩ := h
    exact requireDynamicAxis_agree hlt
  names_agree := by
    intro w r r' h hname
    rw [Request.named_eq_self hstem, Request.named_eq_self hstem, ← h.name_eq]
    refine w.sameUse ?_
    rcases hname with hnone | hname
    · intro n hn
      rw [hnone] at hn
      cases hn
    · rwa [hname]
  grow := by
    intro w r r' h hname shape
    have hlt : ∀ i ∈ (r.toNode w.left shape).description.references refers,
        i < graph.size + w.nodes.length := by
      intro i hi
      obtain ⟨j, hat⟩ := h.exists_of_mem_references hi
      exact lt_of_at hat
    have hrenamed : r' = r.rename refers (shifted graph.size extra.length) :=
      Request.eq_rename_of_alike (h.mono fun _ _ hat => hat.1)
    have hnode : r'.toNode (w.right extra) shape =
        (r.toNode w.left shape).renumber refers (shifted graph.size extra.length) := by
      have hnext : (w.right extra).nextId = shifted graph.size extra.length w.left.nextId :=
        w.size_right
      rw [hrenamed]
      unfold Request.toNode Node.renumber
      rw [hnext]
      rfl
    have hleft := w.left_snoc (r.toNode w.left shape) hname hlt
    rw [Request.named_eq_self hstem, Request.named_eq_self hstem, hnode]
    refine ⟨w.snoc _ hname hlt, List.prefix_append _ _, hleft, w.right_snoc _ hname hlt extra,
      w.size_right, ?_⟩
    rw [hleft]
    exact Graph.lt_size_of_node? (w.left.node?_snoc_size _)

end Block

/-- **A call on a graph with further nodes** that it does not refer to, and that do not have its
name: it appends the same nodes under other numbers, and has the same result. -/
theorem perform_extend {refers : String → Bool} (hrefers : refers "dynamicAxis" = true)
    {settings : Settings} (hstem : settings.options.namePrefix = none) (graph : Graph)
    {extra : List Node} {call : Call} (hreferences : ∀ i ∈ call.references refers, i < graph.size)
    (havoids : Block.Avoids extra call.name) :
    ∃ w : Block refers graph call.name, w.left = (settings.perform call graph).graph ∧
      w.right extra = (settings.perform call (graph.extend extra)).graph ∧
      AgreeUpTo Eq (fun i j => j = shifted graph.size extra.length i ∧ i < w.left.size)
        (settings.perform call graph).result
        (settings.perform call (graph.extend extra)).result := by
  let start : Block refers graph call.name := ⟨[], by simp, by simp⟩
  have hleft : start.left = graph := graph.extend_nil
  have hright : start.right extra = graph.extend extra := (graph.extend extra).extend_nil
  have hcarries := (Block.comparison hstem hrefers graph havoids).perform_carries (w := start)
    (f := id) (g := id) rfl rfl (fun i hi => ⟨rfl, hreferences i hi⟩) (.inr rfl)
  rw [Call.rename_id] at hcarries
  obtain ⟨w, -, hgraph, hgraph', hagree⟩ := hcarries
  change w.left = (settings.perform call start.left).graph at hgraph
  change w.right extra = (settings.perform call (start.right extra)).graph at hgraph'
  change AgreeUpTo Eq _ (settings.perform call start.left).result
    (settings.perform call (start.right extra)).result at hagree
  rw [hleft] at hgraph hagree
  rw [hright] at hgraph' hagree
  exact ⟨w, hgraph, hgraph', hagree⟩

/-! ### Two blocks in either order -/

/-- The number with the blocks of `a` and of `b` numbers behind the first `n` exchanged. -/
def exchange (n a b i : Nat) : Nat :=
  if i < n then i else if i < n + a then i + b else if i < n + a + b then i - a else i

theorem exchange_exchange (n a b i : Nat) : exchange n b a (exchange n a b i) = i := by
  unfold exchange
  split
  · rfl
  · split
    · rw [if_neg (by omega), if_neg (by omega), if_pos (by omega)]
      omega
    · split
      · rw [if_neg (by omega), if_pos (by omega)]
        omega
      · rw [if_neg (by omega), if_neg (by omega)]

theorem exchange_of_lt {n a i : Nat} (h : i < n + a) (b : Nat) :
    exchange n a b i = shifted n b i := by
  unfold exchange shifted
  rw [if_pos h]

theorem exchange_shifted {n b i : Nat} (h : i < n + b) (a : Nat) :
    exchange n a b (shifted n a i) = i := by
  unfold exchange shifted
  split
  · rfl
  · rw [if_neg (by omega), if_neg (by omega), if_pos (by omega)]
    omega

/-- The second graph is the first one with the nodes behind the first `n` renumbered. -/
structure Graph.Renumbers (refers : String → Bool) (n : Nat) (f : NodeId → NodeId)
    (graph graph' : Graph) : Prop where
  size_eq : graph'.size = graph.size
  old : ∀ i < n, graph'.node? i = graph.node? i
  new : ∀ i, n ≤ i → graph'.node? (f i) = (graph.node? i).map (Node.renumber refers f)
  lookup : ∀ name, graph'.names.lookup name = (graph.names.lookup name).map f

/-- The index holds the places of the nodes that have names. -/
theorem Graph.WellFormed.lookup_iff {graph : Graph} (h : graph.WellFormed) {name : String}
    {i : NodeId} :
    graph.names.lookup name = some i ↔ (graph.node? i).bind Node.name = some name := by
  rw [h.lookup_eq_some, Option.bind_eq_some_iff]
  constructor
  · intro hnode
    obtain ⟨node, hmem, hname, rfl⟩ := hnode
    exact ⟨node, h.node?_id hmem, hname⟩
  · intro hnode
    obtain ⟨node, hnode, hname⟩ := hnode
    exact ⟨node, List.mem_of_getElem? hnode, hname, h.id_eq hnode⟩

/-- Where nodes are renumbered, the index is. -/
theorem Graph.WellFormed.lookup_renumber {graph graph' : Graph} (h : graph.WellFormed)
    (h' : graph'.WellFormed) {f g : NodeId → NodeId} (hinverse : ∀ i, f (g i) = i)
    (hnode : ∀ i, (graph'.node? (f i)).bind Node.name = (graph.node? i).bind Node.name)
    (name : String) : graph'.names.lookup name = (graph.names.lookup name).map f := by
  cases hlookup : graph.names.lookup name with
  | some i =>
    refine h'.lookup_iff.2 ?_
    rw [hnode]
    exact h.lookup_iff.1 hlookup
  | none =>
    cases hlookup' : graph'.names.lookup name with
    | none => rfl
    | some j =>
      have hname := h'.lookup_iff.1 hlookup'
      rw [← hinverse j, hnode] at hname
      rw [h.lookup_iff.2 hname] at hlookup
      cases hlookup

namespace Block

variable {refers : String → Bool} {graph : Graph} {x y : Option String} {c : Block refers graph x}
  {d : Block refers graph y} {p : Node} {i : NodeId}

/-- What the nodes of a block tell are numbers of the graph and of the block. -/
theorem numbers_lt (hwf : c.left.WellFormed) (hp : c.left.node? i = some p) (hle : graph.size ≤ i) :
    ∀ j ∈ p.numbers refers, j < graph.size + c.nodes.length := by
  have hlt := Graph.lt_size_of_node? hp
  rw [left, Graph.size_extend] at hlt
  obtain ⟨k, rfl⟩ := Nat.exists_eq_add_of_le hle
  have hmem : p ∈ c.nodes := by
    rw [left, Graph.node?_extend_add] at hp
    exact List.mem_of_getElem? hp
  refine List.forall_mem_cons.2 ⟨?_, c.references_lt p hmem⟩
  rw [hwf.id_eq hp]
  exact hlt

/-- The nodes of the graph and of both blocks, in either order. -/
theorem node?_exchange (hc : c.left.WellFormed) (hd : d.left.WellFormed) {i : Nat}
    (hle : graph.size ≤ i) :
    (c.right d.nodes).node? (exchange graph.size c.nodes.length d.nodes.length i) =
      ((d.right c.nodes).node? i).map
        (Node.renumber refers (exchange graph.size c.nodes.length d.nodes.length)) := by
  by_cases hfirst : i < graph.size + c.nodes.length
  · -- a node of the first block makes room for the second one
    have hnode : (d.right c.nodes).node? i = c.left.node? i :=
      node?_right_of_lt_extend (Graph.size_extend _ _ ▸ hfirst)
    rw [exchange_of_lt hfirst, c.node?_right_of_le d.nodes hle, hnode]
    cases hp : c.left.node? i with
    | none => rfl
    | some p =>
      exact congrArg some (Node.renumber_congr fun j hj =>
        (exchange_of_lt (numbers_lt hc hp hle j hj) _).symm)
  by_cases hsecond : i < graph.size + c.nodes.length + d.nodes.length
  · -- a node of the second block has made room for the first one
    obtain ⟨k, rfl⟩ := Nat.exists_eq_add_of_le (Nat.le_of_not_lt hfirst)
    have hk : graph.size + k < graph.size + d.nodes.length := by omega
    have hnode : (c.right d.nodes).node? (graph.size + k) = d.left.node? (graph.size + k) :=
      node?_right_of_lt_extend (Graph.size_extend _ _ ▸ hk)
    rw [← shifted_add, exchange_shifted hk,
      d.node?_right_of_le c.nodes (Nat.le_add_right graph.size k), hnode]
    cases hq : d.left.node? (graph.size + k) with
    | none => rfl
    | some q =>
      refine congrArg some ?_
      rw [Node.renumber_renumber, Node.renumber_eq_self]
      exact fun j hj => exchange_shifted (numbers_lt hd hq (Nat.le_add_right graph.size k) j hj) _
  · have hsame : exchange graph.size c.nodes.length d.nodes.length i = i := by
      unfold exchange
      rw [if_neg (Nat.not_lt.2 hle), if_neg hfirst, if_neg hsecond]
    have hnone : (d.right c.nodes).node? i = none := by
      rw [Graph.node?_eq_none, d.size_right, left, Graph.size_extend, shifted_add]
      exact Nat.le_of_not_lt hsecond
    have hnone' : (c.right d.nodes).node? i = none := by
      rw [Graph.node?_eq_none, c.size_right, left, Graph.size_extend, shifted_add]
      omega
    rw [hsame, hnone, hnone']
    rfl

/-- **Two blocks in either order**: the one graph is the other with the numbers of the blocks
exchanged. -/
theorem renumbers (hc : c.left.WellFormed) (hd : d.left.WellFormed)
    (hcd : (d.right c.nodes).WellFormed) (hdc : (c.right d.nodes).WellFormed) :
    Graph.Renumbers refers graph.size (exchange graph.size c.nodes.length d.nodes.length)
      (d.right c.nodes) (c.right d.nodes) where
  size_eq := by
    rw [size_right, size_right, left, left, Graph.size_extend, Graph.size_extend, shifted_add,
      shifted_add, Nat.add_right_comm]
  old := by
    intro i hi
    rw [node?_right_of_lt hi, node?_right_of_lt hi]
  new := fun i hle => node?_exchange hc hd hle
  lookup := by
    refine hcd.lookup_renumber hdc (exchange_exchange _ _ _) fun i => ?_
    by_cases hi : i < graph.size
    · rw [exchange_of_lt (Nat.lt_add_right _ hi), shifted_of_lt hi, node?_right_of_lt hi,
        node?_right_of_lt hi]
    · rw [node?_exchange hc hd (Nat.le_of_not_lt hi)]
      cases (d.right c.nodes).node? i <;> rfl

/-- Two calls with different names: neither has the name of a node that the other appends. -/
theorem avoids (h : ∀ name, y = some name → x ≠ some name) : Avoids c.nodes y := by
  intro name hname p hp hpname
  rcases c.name_cases p hp with hnone | hx
  · rw [hnone] at hpname
    cases hpname
  · exact h name hname (hx.symm.trans hpname)

theorem nodes_eq {w : Block refers graph x} (h : c.left = w.left) : c.nodes = w.nodes :=
  List.append_cancel_left (congrArg Graph.nodes h)

end Block

/-- **Calls that do not depend on each other commute.** Two calls refer to nodes that exist before
both of them, and do not give the same name. Without a prefix for names, each has the same outcome
whether it is performed first or second, up to the numbers of nodes, and the graph after both is the
same up to the exchange of the numbers of the nodes that the two calls append, also where they fail.
What keys of attributes refer to nodes is arbitrary, but the dynamic axis of an input does. -/
theorem calls_commute (refers : String → Bool) (hrefers : refers "dynamicAxis" = true)
    {builder : Builder} (hreachable : builder.graph.Reachable)
    (hstem : builder.options.namePrefix = none) {c d : Call}
    (hc : ∀ i ∈ c.references refers, i < builder.graph.size)
    (hd : ∀ i ∈ d.references refers, i < builder.graph.size)
    (hnames : ∀ name, c.name = some name → d.name ≠ some name) :
    let n := builder.graph.size
    let f := exchange n ((builder.run c).graph.size - n) ((builder.run d).graph.size - n)
    ((builder.run d).outcome c).result = (builder.outcome c).result.map f ∧
      (builder.outcome d).result = ((builder.run c).outcome d).result.map f ∧
      Graph.Renumbers refers n f ((builder.run c).run d).graph ((builder.run d).run c).graph := by
  intro n f
  have hnone : ∀ name, Block.Avoids [] name := fun _ _ _ p hp => nomatch hp
  obtain ⟨block, hblock, -, -⟩ := perform_extend hrefers hstem builder.graph hd (hnone d.name)
  obtain ⟨first, hfirst, hfirst', hresult⟩ := perform_extend hrefers hstem builder.graph hc
    (block.avoids fun name hname hname' => hnames name hname hname')
  obtain ⟨second, hsecond, hsecond', hresult'⟩ := perform_extend hrefers hstem builder.graph hd
    (first.avoids fun name hname hname' => hnames name hname' hname)
  -- the second call appends the same block whether it is first or not
  rw [Block.nodes_eq (hblock.trans hsecond.symm)] at hfirst' hresult
  have hcgraph : (builder.run c).graph = builder.graph.extend first.nodes := hfirst.symm
  have hdgraph : (builder.run d).graph = builder.graph.extend second.nodes := hsecond.symm
  have hf : f = exchange n first.nodes.length second.nodes.length := by
    have hlength : (builder.run c).graph.size - n = first.nodes.length := by
      rw [hcgraph, Graph.size_extend, Nat.add_sub_cancel_left]
    have hlength' : (builder.run d).graph.size - n = second.nodes.length := by
      rw [hdgraph, Graph.size_extend, Nat.add_sub_cancel_left]
    show exchange n _ _ = _
    rw [hlength, hlength']
  have hcd : ((builder.run c).run d).graph = second.right first.nodes := by
    rw [hsecond', ← hcgraph]
    rfl
  have hdc : ((builder.run d).run c).graph = first.right second.nodes := by
    rw [hfirst', ← hdgraph]
    rfl
  have hwf : ∀ {graph : Graph}, graph.Reachable → ∀ call,
      (builder.toSettings.perform call graph).graph.WellFormed :=
    fun h call => (Graph.Reachable.call h builder.toSettings call).wellFormed
  rw [hf]
  refine ⟨?_, ?_, ?_⟩
  · show (builder.toSettings.perform c (builder.run d).graph).result =
      (builder.toSettings.perform c builder.graph).result.map _
    rw [hdgraph]
    rcases hresult.cases with ⟨i, _, hi, hi', rfl, hlt⟩ | ⟨e, _, he, he', rfl⟩
    · rw [Block.left, Graph.size_extend] at hlt
      rw [hi, hi']
      exact congrArg Except.ok (exchange_of_lt hlt _).symm
    · rw [he, he']
      rfl
  · show (builder.toSettings.perform d builder.graph).result =
      (builder.toSettings.perform d (builder.run c).graph).result.map _
    rw [hcgraph]
    rcases hresult'.cases with ⟨i, _, hi, hi', rfl, hlt⟩ | ⟨e, _, he, he', rfl⟩
    · rw [Block.left, Graph.size_extend] at hlt
      rw [hi, hi']
      exact congrArg Except.ok (exchange_shifted hlt _).symm
    · rw [he, he']
      rfl
  · rw [hcd, hdc]
    refine Block.renumbers (hfirst ▸ hwf hreachable c) (hsecond ▸ hwf hreachable d) ?_ ?_
    · rw [← hcd]
      exact hwf (.call hreachable builder.toSettings c) d
    · rw [← hdc]
      exact hwf (.call hreachable builder.toSettings d) c

/-- A sum of an input and a literal, and a transposition of a literal that fails for its axes and
leaves a constant behind. -/
theorem calls_commute_sum :
    let builder := Builder.runAll {} [.declare (.input (.dims [2]) none) (some "x")]
    let c : Call := .binary (.combine .plus) (.node 0) (.literal (.fill [2] 1)) (some "sum")
    let d : Call := .unary (.transpose 0 5) (.literal (.fill [3] 1)) (some "turned")
    (builder.outcome c).result = .ok 2 ∧ ((builder.run d).outcome c).result = .ok 3 ∧
      (builder.outcome d).result = .error (.axisOutOfRange 5 1) ∧
      ((builder.run c).outcome d).result = .error (.axisOutOfRange 5 1) ∧
      Graph.Renumbers (fun _ => true) 1 (exchange 1 2 1) ((builder.run c).run d).graph
        ((builder.run d).run c).graph := by
  intro builder c d
  have hreachable : builder.graph.Reachable := Builder.reachable_runAll .empty _
  have hone : ∀ i ∈ [0], i < builder.graph.size := by decide
  have hnone : ∀ i ∈ ([] : List NodeId), i < builder.graph.size := by decide
  have hnames : ∀ name, some "sum" = some name → some "turned" ≠ some name := by decide
  obtain ⟨hc, hd, hrenumbers⟩ :=
    calls_commute (fun _ => true) rfl hreachable rfl (c := c) (d := d) hone hnone hnames
  have hfirst : (builder.outcome c).result = .ok 2 := rfl
  have hsecond : (builder.outcome d).result = .error (.axisOutOfRange 5 1) := rfl
  have hbefore : builder.graph.size = 1 := rfl
  have hsum : (builder.run c).graph.size = 3 := by decide +kernel
  have hturned : (builder.run d).graph.size = 2 := by decide +kernel
  rw [hbefore, hsum, hturned] at hc hd hrenumbers
  rw [hfirst] at hc
  rw [hsecond] at hd
  refine ⟨hfirst, hc, hsecond, ?_, hrenumbers⟩
  cases hresult : ((builder.run c).outcome d).result with
  | ok i =>
    rw [hresult] at hd
    cases hd
  | error e =>
    rw [hresult] at hd
    cases hd
    rfl

end ComputeGraph
