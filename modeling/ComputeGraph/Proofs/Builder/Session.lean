import ComputeGraph.Proofs.Builder.Stages

/-!
# Scripts

A script is a list of calls that refer to the results of earlier calls and not to ids: the nodes in
a call of a script are numbers of calls. What a session remembers of the calls so far tells which
ids these numbers stand for, so one script can be performed by builders that number nodes
differently.

* `Call.references`, `Call.rename` — the nodes that a call refers to, and others in their place;
* `Call.rename_id` — each node in its own place;
* `Session.perform` — the next call of a script, whose references have to be results;
* `Session.play` — a whole script.
-/

namespace ComputeGraph

/-! ### References -/

section References

variable (refers : String → Bool) (f : NodeId → NodeId)

/-- A value with another node in place of a node. -/
def Attribute.rename : Attribute → Attribute
  | .node id => .node (f id)
  | value => value

/-- The node that an operand is. -/
def Operand.node? : Operand → Option NodeId
  | .node id => some id
  | .literal _ => none

/-- An operand with another node in place of a node. -/
def Operand.rename : Operand → Operand
  | .node id => .node (f id)
  | .literal value => .literal value

/-- The dynamic axis of a declaration. -/
def Declaration.axis? : Declaration → Option NodeId
  | .input _ axis => axis
  | .sparseInput _ axis => axis
  | .inputForSamples _ axis => axis
  | .dynamicAxis => none
  | .parameter _ => none

/-- A declaration with another node as its dynamic axis. -/
def Declaration.rename : Declaration → Declaration
  | .input shape axis => .input shape (axis.map f)
  | .sparseInput shape axis => .sparseInput shape (axis.map f)
  | .inputForSamples samples axis => .inputForSamples samples (axis.map f)
  | .dynamicAxis => .dynamicAxis
  | .parameter spec => .parameter spec

namespace Attributes

/-- The nodes at those keys that refer to nodes. -/
def references (attributes : Attributes) : List NodeId :=
  attributes.entries.filterMap fun e => if refers e.1 then e.2.node? else none

/-- The value at a key with another node in place of a node, if the key refers to nodes. -/
def renameAt (key : String) (value : Attribute) : Attribute :=
  if refers key then value.rename f else value

/-- Attributes with other nodes at those keys that refer to nodes. -/
def rename (attributes : Attributes) : Attributes :=
  ⟨attributes.entries.map fun e => (e.1, renameAt refers f e.1 e.2), by
    unfold KeysSorted
    rw [List.pairwise_map]
    exact attributes.sorted⟩

end Attributes

/-- The nodes that a request refers to. -/
def Request.references (request : Request) : List NodeId :=
  request.inputs ++ request.attributes.references refers

/-- A request for other nodes. -/
def Request.rename (request : Request) : Request :=
  { request with
    inputs := request.inputs.map f
    attributes := request.attributes.rename refers f }

/-- The nodes that a call refers to. -/
def Call.references : Call → List NodeId
  | .declare declaration _ => declaration.axis?.toList
  | .add request => request.references refers
  | call => call.operands.filterMap Operand.node?

/-- A call for other nodes. -/
def Call.rename : Call → Call
  | .declare declaration name => .declare (declaration.rename f) name
  | .unary operator x name => .unary operator (x.rename f) name
  | .binary operator left right name => .binary operator (left.rename f) (right.rename f) name
  | .ternary operator first second third name =>
    .ternary operator (first.rename f) (second.rename f) (third.rename f) name
  | .add request => .add (request.rename refers f)

end References

/-! ### Calls for other nodes -/

section Rename

variable {refers : String → Bool}

theorem Attributes.find?_rename (f : NodeId → NodeId) (attributes : Attributes) (key : String) :
    (attributes.rename refers f).find? key =
      (attributes.find? key).map (renameAt refers f key) := by
  show (attributes.entries.map fun e => (e.1, renameAt refers f e.1 e.2)).lookup key =
    (attributes.entries.lookup key).map (renameAt refers f key)
  induction attributes.entries with
  | nil => rfl
  | cons e entries ih =>
    obtain ⟨k, value⟩ := e
    rw [List.map_cons, List.lookup_cons, List.lookup_cons]
    cases hk : key == k with
    | true =>
      obtain rfl := eq_of_beq hk
      rfl
    | false => exact ih

theorem Attributes.mem_references {attributes : Attributes} {key : String} {id : NodeId}
    (hrefers : refers key = true) (h : attributes.find? key = some (.node id)) :
    id ∈ attributes.references refers := by
  refine List.mem_filterMap.2 ⟨(key, .node id), ?_, ?_⟩
  · obtain ⟨before, after, hentries, -⟩ := List.lookup_eq_some_iff.1 h
    rw [hentries]
    exact List.mem_append_right _ List.mem_cons_self
  · show (if refers key then some id else none) = some id
    rw [if_pos hrefers]

/-- Every node in place of itself. -/
theorem Attributes.rename_id (attributes : Attributes) :
    attributes.rename refers id = attributes := by
  have hvalue : ∀ key value, renameAt refers id key value = value := by
    intro key value
    unfold renameAt
    split
    · cases value <;> rfl
    · rfl
  unfold rename
  simp only [hvalue, List.map_id']

theorem Attributes.rename_rename (f g : NodeId → NodeId) (attributes : Attributes) :
    (attributes.rename refers f).rename refers g = attributes.rename refers (g ∘ f) := by
  have hvalue : ∀ key value, renameAt refers g key (renameAt refers f key value) =
      renameAt refers (g ∘ f) key value := by
    intro key value
    unfold renameAt
    split
    · cases value <;> rfl
    · rfl
  unfold rename
  simp only [List.map_map, Function.comp_def, hvalue]

/-- Only the nodes that are referred to matter. -/
theorem Attributes.rename_congr {f g : NodeId → NodeId} {attributes : Attributes}
    (h : ∀ i ∈ attributes.references refers, f i = g i) :
    attributes.rename refers f = attributes.rename refers g := by
  have hentries : ∀ e ∈ attributes.entries,
      (e.1, renameAt refers f e.1 e.2) = (e.1, renameAt refers g e.1 e.2) := by
    intro e he
    unfold renameAt
    split
    · rename_i hrefers
      cases hvalue : e.2 with
      | node i =>
        have hmem : i ∈ attributes.references refers :=
          List.mem_filterMap.2 ⟨e, he, by rw [if_pos hrefers, hvalue]; rfl⟩
        exact congrArg (fun j => (e.1, Attribute.node j)) (h i hmem)
      | _ => rfl
    · rfl
  unfold rename
  simp only [List.map_congr_left hentries]

theorem Request.rename_id (request : Request) : request.rename refers id = request := by
  unfold rename
  rw [List.map_id, Attributes.rename_id]

namespace Call

theorem operands_rename (f : NodeId → NodeId) (call : Call) :
    (call.rename refers f).operands = call.operands.map (Operand.rename f) := by
  cases call <;> rfl

theorem refusal?_rename (f : NodeId → NodeId) (call : Call) :
    (call.rename refers f).refusal? = call.refusal? := by
  cases call <;> rfl

theorem foldable?_rename (f : NodeId → NodeId) (call : Call) :
    (call.rename refers f).foldable? = call.foldable? := by
  cases call with
  | unary operator x name => cases operator <;> cases x <;> rfl
  | _ => rfl

theorem name_rename (f : NodeId → NodeId) (call : Call) :
    (call.rename refers f).name = call.name := by
  cases call <;> rfl

theorem mem_references_of_operand {call : Call} {i : NodeId}
    (h : i ∈ call.operands.filterMap Operand.node?) : i ∈ call.references refers := by
  cases call with
  | declare declaration name => cases h
  | add request => cases h
  | _ => exact h

theorem rename_id (call : Call) : call.rename refers id = call := by
  have hoperand : ∀ x : Operand, x.rename id = x := fun x => by cases x <;> rfl
  cases call with
  | declare declaration name =>
    cases declaration <;> simp [rename, Declaration.rename]
  | add request => exact congrArg Call.add request.rename_id
  | _ => simp [rename, hoperand]

end Call

end Rename

/-! ### Sessions -/

/-- A call of a script and its result. -/
structure Step where
  call : Call
  result : Except Error NodeId

/-- A builder and the calls of a script that it has performed. -/
structure Session where
  builder : Builder
  steps : List Step := []

namespace Session

/-- The node that a call of the script has made. -/
def node? (session : Session) (n : Nat) : Option NodeId :=
  match session.steps[n]? with
  | some ⟨_, .ok id⟩ => some id
  | _ => none

/-- The call that the next call of a script stands for. -/
def actual (refers : String → Bool) (session : Session) (call : Call) : Call :=
  call.rename refers fun n => (session.node? n).getD 0

/-- The session after the next call of a script, if the call refers to results of earlier calls. -/
def perform (refers : String → Bool) (session : Session) (call : Call) : Option Session :=
  if ∀ n ∈ call.references refers, (session.node? n).isSome then
    some {
      builder := session.builder.run (session.actual refers call)
      steps := session.steps ++
        [⟨call, (session.builder.outcome (session.actual refers call)).result⟩] }
  else none

/-- The session after a script, if every call refers to results of earlier calls. -/
def play (refers : String → Bool) (session : Session) : List Call → Option Session
  | [] => some session
  | call :: script => (session.perform refers call).bind fun after => after.play refers script

end Session

end ComputeGraph
