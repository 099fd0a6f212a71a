import ComputeGraph.Proofs.Builder.Agreement
import ComputeGraph.Proofs.Builder.Comparison
import ComputeGraph.Proofs.Builder.Names

/-!
# What a name prefix influences

Two builders whose options differ in the prefix for names make the same nodes but for their names,
as long as no call gives a name. A node without a name is never refused for it, because the name
that it gets is fresh, and nothing but messages of errors depends on the names of other nodes.

* `Graph.SameButNames` — graphs whose nodes differ in names alone;
* `SameNodes`, `SameNodes.comparison` — two such graphs, and what is known of their nodes;
* `SameNodes.perform` — every call, `SameNodes.runAll` — every sequence of calls;
* **`namePrefix_names_only`** — every step of every script.
-/

namespace ComputeGraph

/-- Settings with another prefix for names, or without one. -/
def Settings.prefixed (settings : Settings) (stem : Option String) : Settings :=
  { settings with options := { settings.options with namePrefix := stem } }

/-- The node without its name. -/
def Node.unnamed (node : Node) : Node :=
  { node with name := none }

theorem Node.eq_of_unnamed {p q : Node} (h : p.unnamed = q.unnamed) :
    p.hostShape = q.hostShape ∧ p.kind = q.kind := by
  cases p
  cases q
  cases h
  exact ⟨rfl, rfl⟩

/-- The nodes are the same but for their names. -/
def Graph.SameButNames (graph graph' : Graph) : Prop :=
  graph.nodes.map Node.unnamed = graph'.nodes.map Node.unnamed

/-- Two graphs whose nodes are the same but for their names. -/
structure SameNodes where
  left : Graph
  right : Graph
  same : left.SameButNames right

namespace SameNodes

variable {w : SameNodes} {i : NodeId}

theorem size_eq (w : SameNodes) : w.left.size = w.right.size := by
  have hlength := congrArg List.length w.same
  rwa [List.length_map, List.length_map] at hlength

/-- At every place there are two nodes that are the same but for their names, or none. -/
theorem node?_cases (w : SameNodes) (i : NodeId) :
    (w.left.node? i = none ∧ w.right.node? i = none) ∨
      ∃ p q, w.left.node? i = some p ∧ w.right.node? i = some q ∧ p.unnamed = q.unnamed := by
  have hsame : (w.left.node? i).map Node.unnamed = (w.right.node? i).map Node.unnamed := by
    unfold Graph.node?
    rw [← List.getElem?_map, ← List.getElem?_map, w.same]
  cases hp : w.left.node? i with
  | none =>
    rw [hp] at hsame
    exact .inl ⟨rfl, Option.map_eq_none_iff.1 hsame.symm⟩
  | some p =>
    rw [hp] at hsame
    obtain ⟨q, hq, hpq⟩ := Option.map_eq_some_iff.1 hsame.symm
    exact .inr ⟨p, q, rfl, hq, hpq.symm⟩

theorem get_agree (w : SameNodes) (i : NodeId) :
    AgreeUpTo Error.Similar (fun p q => p.hostShape = q.hostShape ∧ p.kind = q.kind)
      (w.left.get i) (w.right.get i) := by
  rcases w.node?_cases i with ⟨hp, hq⟩ | ⟨p, q, hp, hq, hpq⟩
  · rw [Graph.get_eq_error.2 ⟨hp, rfl⟩, Graph.get_eq_error.2 ⟨hq, rfl⟩]
    exact .error rfl
  · rw [Graph.get_eq_ok.2 hp, Graph.get_eq_ok.2 hq]
    exact .ok (Node.eq_of_unnamed hpq)

theorem knownShape_agree (w : SameNodes) (i : NodeId) (kind : Kind) :
    AgreeUpTo Error.Similar Eq (w.left.knownShape i kind) (w.right.knownShape i kind) := by
  refine (w.get_agree i).bind fun p q hpq => ?_
  rw [hpq.1]
  cases q.hostShape with
  | some shape => exact .ok rfl
  | none => exact .error rfl

theorem requireDynamicAxis_agree (w : SameNodes) (i : NodeId) :
    AgreeUpTo Error.Similar Eq (w.left.requireDynamicAxis i) (w.right.requireDynamicAxis i) := by
  refine (w.get_agree i).bind fun p q hpq => ?_
  rw [hpq.2]
  split
  · exact .ok rfl
  · exact .error rfl

/-- Both graphs get the node of a request, each under a name of its own. -/
def snoc (w : SameNodes) (request : Request) (name name' : Option String)
    (shape : Option Extents) : SameNodes where
  left := w.left.snoc (Request.toNode { request with name } w.left shape)
  right := w.right.snoc (Request.toNode { request with name := name' } w.right shape)
  same := by
    have hnext : w.left.nextId = w.right.nextId := w.size_eq
    show (w.left.nodes ++ [_]).map Node.unnamed = (w.right.nodes ++ [_]).map Node.unnamed
    rw [List.map_append, List.map_append, w.same]
    simp only [Request.toNode, hnext, List.map_cons, Node.unnamed]

variable (settings : Settings) (stem stem' : Option String)

/-- Builders with different prefixes for names can be compared on such graphs. -/
def comparison : Comparison (fun _ => true) SameNodes where
  left := left
  right := right
  Extends := fun _ _ => True
  refl := fun _ => trivial
  trans := fun _ _ => trivial
  errors := Error.Similar
  errors_refl := Error.Similar.refl
  leftSettings := settings.prefixed stem
  rightSettings := settings.prefixed stem'
  registry_eq := rfl
  strict_eq := rfl
  refers_axis := rfl
  Ref := fun _ i j => j = id i
  At := fun _ i j => j = id i
  Made := fun _ i j => j = id i
  Named := fun name => name = none
  ref_mono := fun _ h => h
  at_mono := fun _ h => h
  at_of_ref := fun h => h
  at_of_made := fun h _ => h
  named_none := rfl
  get_agree := by
    rintro w _ i rfl
    exact (w.get_agree i).imp fun _ _ _ hpq => hpq.1
  shape_agree := by
    rintro w _ i rfl kind
    exact w.knownShape_agree i kind
  axis_agree := by
    rintro w _ i rfl
    exact w.requireDynamicAxis_agree i
  names_agree := by
    intro w r r' h hname
    exact .inl ⟨w.left.isFree_named hname _, w.right.isFree_named (h.name_eq ▸ hname) _⟩
  grow := by
    intro w r r' h _ shape
    have hsame : r' = r := (Request.eq_rename_of_alike h).trans r.rename_id
    subst hsame
    rw [r'.named_eq _ w.left, r'.named_eq _ w.right]
    exact ⟨w.snoc r' _ _ shape, trivial, rfl, rfl, w.size_eq.symm⟩

/-- **Every call** that gives no name: both builders succeed with the same id, or both fail with
errors of the same category. -/
theorem perform (w : SameNodes) {call : Call} (hname : call.name = none) :
    ∃ after : SameNodes, after.left = ((settings.prefixed stem).perform call w.left).graph ∧
      after.right = ((settings.prefixed stem').perform call w.right).graph ∧
      Agree Eq ((settings.prefixed stem).perform call w.left).result
        ((settings.prefixed stem').perform call w.right).result := by
  have hcarries := (comparison settings stem stem').perform_carries (w := w)
    (f := id) (g := id) rfl rfl (fun _ _ => rfl) hname
  rw [Call.rename_id] at hcarries
  obtain ⟨after, -, hleft, hright, hagree⟩ := hcarries
  exact ⟨after, hleft, hright, (Agree.iff_agreeUpTo.2 hagree).imp fun _ _ h => h.symm⟩

/-- **Every sequence of calls** that give no names. -/
theorem runAll (w : SameNodes) {calls : List Call} (h : ∀ call ∈ calls, call.name = none) :
    ∃ after : SameNodes,
      after.left = (Builder.runAll ⟨settings.prefixed stem, w.left⟩ calls).graph ∧
      after.right = (Builder.runAll ⟨settings.prefixed stem', w.right⟩ calls).graph := by
  induction calls generalizing w with
  | nil => exact ⟨w, rfl, rfl⟩
  | cons call calls ih =>
    obtain ⟨next, hleft, hright, -⟩ := w.perform settings stem stem' (h call List.mem_cons_self)
    obtain ⟨after, hafter, hafter'⟩ := ih next fun c hc => h c (List.mem_cons_of_mem _ hc)
    rw [hleft] at hafter
    rw [hright] at hafter'
    exact ⟨after, hafter, hafter'⟩

end SameNodes

/-- **The prefix for names influences names only.** Two builders under the same settings but for the
prefix start with no nodes and perform the same calls, none of which gives a name. Then the next
such call succeeds with both and returns the same id, or fails with both for errors of the same
category, and the graphs are the same afterwards but for the names of their nodes. -/
theorem namePrefix_names_only (settings : Settings) (stem stem' : Option String)
    (calls : List Call) (call : Call) (hunnamed : ∀ c ∈ call :: calls, c.name = none) :
    let left := Builder.runAll { toSettings := settings.prefixed stem } calls
    let right := Builder.runAll { toSettings := settings.prefixed stem' } calls
    Agree Eq (left.outcome call).result (right.outcome call).result ∧
      (left.run call).graph.SameButNames (right.run call).graph := by
  intro left right
  obtain ⟨hcall, hcalls⟩ := List.forall_mem_cons.1 hunnamed
  obtain ⟨w, hleft, hright⟩ :=
    SameNodes.runAll settings stem stem' ⟨.empty, .empty, rfl⟩ hcalls
  obtain ⟨after, hleft', hright', hagree⟩ := w.perform settings stem stem' hcall
  have houtcome : left.outcome call = (settings.prefixed stem).perform call w.left := by
    rw [hleft]
    show left.toSettings.perform call left.graph = _
    rw [Builder.settings_runAll]
  have houtcome' : right.outcome call = (settings.prefixed stem').perform call w.right := by
    rw [hright]
    show right.toSettings.perform call right.graph = _
    rw [Builder.settings_runAll]
  refine ⟨?_, ?_⟩
  · rw [houtcome, houtcome']
    exact hagree
  · show (left.outcome call).graph.SameButNames (right.outcome call).graph
    rw [houtcome, houtcome', ← hleft', ← hright']
    exact after.same

/-- A sum of an input and a function of a literal, with and without a prefix. -/
theorem namePrefix_names_only_sum :
    let calls : List Call :=
      [.declare (.input (.dims [2]) none) none, .unary (.apply .exp) (.literal (.fill [2] 1)) none]
    let call : Call := .binary (.combine .plus) (.node 0) (.node 2) none
    let left := Builder.runAll { toSettings := Settings.prefixed {} (some "n") } calls
    let right := Builder.runAll { toSettings := Settings.prefixed {} none } calls
    (left.run call).graph.nodes.map Node.name = [some "n0", some "n1", some "n2", some "n3"] ∧
      (right.run call).graph.nodes.map Node.name = [none, none, none, none] ∧
      Agree Eq (left.outcome call).result (right.outcome call).result ∧
      (left.run call).graph.SameButNames (right.run call).graph := by
  intro calls call left right
  obtain ⟨hagree, hsame⟩ := namePrefix_names_only {} (some "n") none calls call
    (by simp [calls, call, Call.name])
  exact ⟨by decide +kernel, by decide +kernel, hagree, hsame⟩

end ComputeGraph
