import ComputeGraph.Proofs.Builder.Requests
import ComputeGraph.Proofs.Builder.Growth

/-!
# The stages of a call

A call that is not folded goes through the same stages whatever it asks for: its arguments alone may
be refused, its operands become nodes from left to right, a request is made for these nodes, and the
node of the request is appended. A call that is folded makes one constant. What is proved of every
call is proved of the stages first.

* `Call.kind`, `Call.name` — what every call says about the node that it makes;
* `Call.foldable?` — the calls that a builder may fold;
* `Call.request` — the request of a call once its operands are nodes;
* `Settings.resolveAll` — the operands as nodes, from left to right;
* **`Settings.perform_of_unfolded`**, **`Settings.perform_of_folded`** — every call goes through the
  stages, or makes the constant of its values;
* **`Call.request_says`** — kind, name and operands of the request of a call.
-/

namespace ComputeGraph

variable {α β γ : Type}

/-! ### Work in sequence -/

namespace Build

theorem pure_bind (a : α) (f : α → Build β) : (pure a : Build α) >>= f = f a :=
  rfl

theorem bind_assoc (x : Build α) (f : α → Build β) (g : β → Build γ) :
    x >>= f >>= g = x >>= fun a => f a >>= g := by
  funext graph
  show andThen (andThen x f) g graph = andThen x (fun a => andThen (f a) g) graph
  cases hx : (x graph).result with
  | error e => simp [andThen, hx]
  | ok a =>
    cases hf : (f a (x graph).graph).result with
    | error e => simp [andThen, hx, hf]
    | ok b => simp [andThen, hx, hf, List.append_assoc]

end Build

/-! ### What calls say -/

/-- The kind of the node of a declaration. -/
def Declaration.kind : Declaration → Kind
  | .input .. => .input
  | .sparseInput .. => .sparseInput
  | .inputForSamples .. => .input
  | .dynamicAxis => .dynamicAxis
  | .parameter _ => .parameter

/-- The kind of the node of an operator. -/
def UnaryOperator.kind : UnaryOperator → Kind
  | .apply f => f.kind
  | .softmax => .softmax
  | .dropout => .dropout
  | .delayed direction .. => direction.kind
  | .reshape _ => .reshape
  | .transpose .. => .transposeDimensions
  | .slice .. => .slice

/-- The kind of the node of an operator. -/
def BinaryOperator.kind : BinaryOperator → Kind
  | .combine combination => combination.kind
  | .times _ => .times

namespace Call

/-- The kind of the node of a call that is not folded. -/
def kind : Call → Kind
  | .declare declaration _ => declaration.kind
  | .unary operator _ _ => operator.kind
  | .binary operator _ _ _ => operator.kind
  | .ternary operator _ _ _ _ => operator.kind
  | .add request => request.kind

/-- The name that a call gives to its node. -/
def name : Call → Option String
  | .declare _ name => name
  | .unary _ _ name => name
  | .binary _ _ _ name => name
  | .ternary _ _ _ _ name => name
  | .add request => request.name

/-- Why a call is refused whatever its operands are. -/
def refusal? : Call → Option Error
  | .unary operator _ _ => operator.refusal?
  | _ => none

theorem exists_of_refusal?_eq_some {call : Call} {e : Error} (h : call.refusal? = some e) :
    ∃ kind, e = .zeroTimeStep kind := by
  cases call with
  | unary operator x name =>
    cases operator with
    | delayed direction dims timeStep outside =>
      change (if timeStep = 0 then some _ else none) = some e at h
      split at h
      · exact ⟨direction.kind, (Option.some.inj h).symm⟩
      · cases h
    | _ => cases h
  | _ => cases h

/-- The function and the tensor of a call that applies a function to a literal. -/
def foldable? : Call → Option (Elementwise × Tensor)
  | .unary (.apply f) (.literal value) _ => some (f, value)
  | _ => none

theorem exists_of_foldable?_eq_some {call : Call} {f : Elementwise} {value : Tensor}
    (h : call.foldable? = some (f, value)) :
    ∃ name, call = .unary (.apply f) (.literal value) name := by
  unfold foldable? at h
  split at h
  · rename_i f' value' name
    cases h
    exact ⟨name, rfl⟩
  · cases h

/-- The operands of the node of a call, where the operands of the call are the given nodes. The
engine gets those of a product swapped. -/
def inputs : Call → List NodeId → List NodeId
  | .declare _ _, _ => []
  | .binary (.times _) _ _ _, ids => ids.reverse
  | .add request, _ => request.inputs
  | _, ids => ids

/-- The request of a call whose operands are the given nodes, one for each of them. -/
def request (strict : Bool) (graph : Graph) : Call → List NodeId → Attempt Request
  | .declare declaration name, _ => declaration.request graph name
  | .unary operator _ name, [x] => operator.request strict graph x name
  | .binary operator _ _ name, [left, right] => operator.request strict graph left right name
  | .ternary operator _ _ _ name, [first, second, third] =>
    return operator.request first second third name
  | .add request, _ => return request
  | call, ids => Attempt.fail (.wrongArity call.kind call.operands.length ids.length)

end Call

/-! ### Requests of calls -/

section Requests

variable {strict : Bool} {graph : Graph} {request : Request}

theorem declaration_says {declaration : Declaration} {name : Option String}
    (h : (declaration.request graph name).result = .ok request) :
    request.kind = declaration.kind ∧ request.name = name ∧ request.inputs = [] := by
  cases declaration with
  | input shape axis =>
    obtain ⟨entries, -, rfl⟩ := requestInput_eq_ok.1 h
    exact ⟨rfl, rfl, rfl⟩
  | sparseInput shape axis =>
    obtain ⟨entries, -, rfl⟩ := requestInput_eq_ok.1 h
    exact ⟨rfl, rfl, rfl⟩
  | inputForSamples samples axis =>
    obtain ⟨shape, -, h⟩ := Attempt.bind_eq_ok.1 h
    obtain ⟨entries, -, rfl⟩ := requestInput_eq_ok.1 h
    exact ⟨rfl, rfl, rfl⟩
  | dynamicAxis =>
    cases h
    exact ⟨rfl, rfl, rfl⟩
  | parameter spec =>
    rcases requestParameter_eq_ok.1 h with ⟨-, shape, -, h⟩ | ⟨value, -, -, -, h⟩
    · rw [requestUninitialised_eq, Except.ok.injEq] at h
      subst h
      exact ⟨rfl, rfl, rfl⟩
    · obtain ⟨literal, -, rfl⟩ := requestInitialised_eq_ok.1 h
      exact ⟨rfl, rfl, rfl⟩

theorem unary_says {operator : UnaryOperator} {x : NodeId} {name : Option String}
    (h : (operator.request strict graph x name).result = .ok request) :
    request.kind = operator.kind ∧ request.name = name ∧ request.inputs = [x] := by
  cases operator with
  | delayed direction dims timeStep outside =>
    rw [UnaryOperator.request, requestDelayed_eq, Except.ok.injEq] at h
    subst h
    exact ⟨rfl, rfl, rfl⟩
  | reshape target =>
    obtain ⟨node, shape, -, -, rfl⟩ := requestReshape_eq_ok.1 h
    exact ⟨rfl, rfl, rfl⟩
  | transpose axis1 axis2 =>
    obtain ⟨shape, engineAxis1, engineAxis2, -, -, -, rfl⟩ := requestTranspose_eq_ok.1 h
    exact ⟨rfl, rfl, rfl⟩
  | slice start stop axis =>
    obtain ⟨shape, engineAxis, -, -, -, -, -, rfl⟩ := requestSlice_eq_ok.1 h
    exact ⟨rfl, rfl, rfl⟩
  | _ =>
    cases h
    exact ⟨rfl, rfl, rfl⟩

theorem binary_says {operator : BinaryOperator} {left right : NodeId} {name : Option String}
    (h : (operator.request strict graph left right name).result = .ok request) :
    request.kind = operator.kind ∧ request.name = name ∧
      request.inputs = match operator with
        | .combine _ => [left, right]
        | .times _ => [right, left] := by
  cases operator with
  | combine combination =>
    cases h
    exact ⟨rfl, rfl, rfl⟩
  | times outputRank =>
    obtain ⟨leftShape, engineRank, rightNode, shape, -, -, -, -, rfl⟩ := requestTimes_eq_ok.1 h
    exact ⟨rfl, rfl, rfl⟩

/-- **The request of a call** is of its kind, under its name and for its operands. -/
theorem Call.request_says {call : Call} {ids : List NodeId}
    (h : (call.request strict graph ids).result = .ok request) :
    request.kind = call.kind ∧ request.name = call.name ∧ request.inputs = call.inputs ids := by
  unfold Call.request at h
  split at h
  · exact declaration_says h
  · exact unary_says h
  · rename_i operator _ _ name left right
    have hsays := binary_says h
    cases operator <;> exact hsays
  · cases h
    exact ⟨rfl, rfl, rfl⟩
  · cases h
    exact ⟨rfl, rfl, rfl⟩
  · cases h

end Requests

/-! ### The stages -/

namespace Settings

variable (settings : Settings)

/-- The nodes of some operands, made from left to right. -/
def resolveAll : List Operand → Build (List NodeId)
  | [] => pure []
  | x :: operands => do
    let id ← settings.resolve x
    let ids ← resolveAll operands
    return id :: ids

/-- Makes a request and appends its node. -/
def ask (f : Graph → Attempt Request) : Build NodeId :=
  Build.query f >>= settings.add

/-- What a call does that is not folded. -/
def performStages (call : Call) : Build NodeId :=
  match call.refusal? with
  | some error => Build.query fun _ => Attempt.fail error
  | none => settings.resolveAll call.operands >>= fun ids =>
      settings.ask fun graph => call.request settings.options.validateShapes graph ids

/-- The function and the tensor of a call that is folded. -/
def foldedCall? : Call → Option (Elementwise × Tensor)
  | .unary operator x _ => settings.folded? operator x
  | _ => none

variable {settings}

/-- A builder folds the calls that can be folded if it folds any. -/
theorem foldedCall?_eq (settings : Settings) (call : Call) :
    settings.foldedCall? call =
      if settings.options.foldConstants then call.foldable? else none := by
  cases call with
  | unary operator x name =>
    cases operator with
    | apply f =>
      cases x with
      | node id => cases settings.options.foldConstants <;> rfl
      | literal value => rfl
    | _ => cases x <;> cases settings.options.foldConstants <;> rfl
  | _ => cases settings.options.foldConstants <;> rfl

/-- **Calls that are not folded** go through the stages. -/
theorem perform_of_unfolded {call : Call} (h : settings.foldedCall? call = none) :
    settings.perform call = settings.performStages call := by
  cases call with
  | declare declaration name => rfl
  | add request => rfl
  | unary operator x name =>
    have hfolded : settings.folded? operator x = none := h
    simp only [perform, hfolded, performUnary, performStages, Call.refusal?]
    cases operator.refusal? with
    | some error => rfl
    | none =>
      simp only [Call.operands, resolveAll, Build.bind_assoc, Build.pure_bind]
      rfl
  | binary operator left right name =>
    simp only [performStages, Call.refusal?, Call.operands, resolveAll, Build.bind_assoc,
      Build.pure_bind]
    rfl
  | ternary operator first second third name =>
    simp only [performStages, Call.refusal?, Call.operands, resolveAll, Build.bind_assoc,
      Build.pure_bind]
    rfl

/-- **Calls that are folded** have the effect of declaring a constant. -/
theorem perform_of_folded {call : Call} {f : Elementwise} {value : Tensor}
    (h : settings.foldedCall? call = some (f, value)) (graph : Graph) :
    (settings.perform call graph).graph =
        (settings.constant (f.fold settings.options.domainPolicy value) call.name graph).graph ∧
      (settings.perform call graph).result =
        (settings.constant (f.fold settings.options.domainPolicy value) call.name
          graph).result := by
  cases call with
  | unary operator x name =>
    have hfolded : settings.folded? operator x = some (f, value) := h
    simp only [perform, hfolded]
    have hrecord : ((Build.query fun _ => Attempt.record (.folded f.kind value.shape))
        graph).result = .ok () := rfl
    obtain ⟨hresult, hgraph⟩ := Build.bind_of_ok (f := fun _ =>
      settings.constant (f.fold settings.options.domainPolicy value) name) hrecord
    exact ⟨hgraph, hresult⟩
  | _ => cases h

end Settings

/-! ### Runs -/

namespace Builder

/-- Something holds of every call of a run and the builder that performs it. -/
def Throughout (holds : Builder → Call → Prop) (builder : Builder) : List Call → Prop
  | [] => True
  | call :: calls => holds builder call ∧ (builder.run call).Throughout holds calls

/-- The call succeeds. -/
def Succeeds (builder : Builder) (call : Call) : Prop :=
  ∃ id, (builder.outcome call).result = .ok id

instance (builder : Builder) (call : Call) : Decidable (builder.Succeeds call) :=
  match h : (builder.outcome call).result with
  | .ok id => isTrue ⟨id, h⟩
  | .error e => isFalse fun hok => by
    obtain ⟨id, hok⟩ := hok
    rw [h] at hok
    cases hok

end Builder

end ComputeGraph
