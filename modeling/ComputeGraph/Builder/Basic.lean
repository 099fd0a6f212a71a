import ComputeGraph.Builder.Naming
import ComputeGraph.Builder.Request
import ComputeGraph.Operator.Registry

/-!
# Builders

A builder keeps a graph, a registry of operators and options, and performs calls one after another.
A call first turns its literal operands into constants, from left to right, and then asks for its
own node. If it fails, the constants made so far stay in the graph.

* `Outcome`, `Build` — work on a graph, whose effect stays if it fails;
* `Settings.perform` — what a call does to a graph;
* `Builder.run` — the outcome of a call and the builder after it.
-/

namespace ComputeGraph

/-- What work on a graph leaves behind. -/
structure Outcome (α : Type) where
  graph : Graph
  log : List LogRecord
  result : Except Error α

/-- Work on a graph. -/
def Build (α : Type) : Type :=
  Graph → Outcome α

namespace Build

variable {α β : Type}

/-- Goes on with a result; an error ends the work and leaves the graph as it is then. -/
def andThen (x : Build α) (f : α → Build β) : Build β := fun graph =>
  match (x graph).result with
  | .error error => ⟨(x graph).graph, (x graph).log, .error error⟩
  | .ok a =>
    let after := f a (x graph).graph
    ⟨after.graph, (x graph).log ++ after.log, after.result⟩

instance : Monad Build where
  pure a := fun graph => ⟨graph, [], .ok a⟩
  bind := andThen

/-- Finds something out about the graph without changing it. -/
def query (f : Graph → Attempt α) : Build α := fun graph =>
  ⟨graph, (f graph).log, (f graph).result⟩

/-- Changes the graph if the attempt succeeds. -/
def change (f : Graph → Attempt (α × Graph)) : Build α := fun graph =>
  match (f graph).result with
  | .error error => ⟨graph, (f graph).log, .error error⟩
  | .ok (a, after) => ⟨after, (f graph).log, .ok a⟩

end Build

/-- What a builder keeps unchanged. -/
structure Settings where
  registry : Registry := .standard
  options : Options := {}
deriving DecidableEq, Repr

namespace Settings

/-- Appends the node of a request, with a fresh name if it needs one. -/
def add (settings : Settings) (request : Request) : Build NodeId :=
  Build.change fun graph =>
    settings.registry.append settings.options.validateShapes graph
      (request.named settings.options graph)

/-- Appends the node of a declaration. -/
def declare (settings : Settings) (declaration : Declaration) (name : Option String) :
    Build NodeId := do
  let request ← Build.query fun graph => declaration.request graph name
  settings.add request

/-- Appends a parameter that training does not change. -/
def constant (settings : Settings) (value : Tensor) (name : Option String) : Build NodeId :=
  settings.declare (.parameter (.constant value)) name

/-- The node of an operand, which has to exist; a literal becomes a constant. -/
def resolve (settings : Settings) : Operand → Build NodeId
  | .node id => Build.query fun graph => Attempt.ofExcept ((graph.get id).map fun _ => id)
  | .literal value => settings.constant value none

/-- The function and the tensor of an operator that is applied at once. -/
def folded? (settings : Settings) : UnaryOperator → Operand → Option (Elementwise × Tensor)
  | .apply f, .literal value => if settings.options.foldConstants then some (f, value) else none
  | _, _ => none

/-- Performs an operator on one operand by appending its node. -/
def performUnary (settings : Settings) (operator : UnaryOperator) (x : Operand)
    (name : Option String) : Build NodeId := do
  if let some error := operator.refusal? then Build.query fun _ => Attempt.fail error
  else
    let x ← settings.resolve x
    let request ← Build.query fun graph =>
      operator.request settings.options.validateShapes graph x name
    settings.add request

/-- Performs a function on a literal by appending the constant of its values. -/
def performFolded (settings : Settings) (f : Elementwise) (value : Tensor)
    (name : Option String) : Build NodeId := do
  Build.query fun _ => Attempt.record (.folded f.kind value.shape)
  settings.constant (f.fold settings.options.domainPolicy value) name

/-- Performs an operator on two operands. -/
def performBinary (settings : Settings) (operator : BinaryOperator) (left right : Operand)
    (name : Option String) : Build NodeId := do
  let left ← settings.resolve left
  let right ← settings.resolve right
  let request ← Build.query fun graph =>
    operator.request settings.options.validateShapes graph left right name
  settings.add request

/-- Performs an operator on three operands. -/
def performTernary (settings : Settings) (operator : TernaryOperator)
    (first second third : Operand) (name : Option String) : Build NodeId := do
  let first ← settings.resolve first
  let second ← settings.resolve second
  let third ← settings.resolve third
  settings.add (operator.request first second third name)

/-- What a call does to a graph. -/
def perform (settings : Settings) : Call → Build NodeId
  | .declare declaration name => settings.declare declaration name
  | .unary operator x name =>
    match settings.folded? operator x with
    | some (f, value) => settings.performFolded f value name
    | none => settings.performUnary operator x name
  | .binary operator left right name => settings.performBinary operator left right name
  | .ternary operator first second third name =>
    settings.performTernary operator first second third name
  | .add request => settings.add request

end Settings

/-- A graph under construction. -/
structure Builder extends Settings where
  graph : Graph := .empty
deriving DecidableEq

namespace Builder

/-- What a call leaves behind. -/
def outcome (builder : Builder) (call : Call) : Outcome NodeId :=
  builder.toSettings.perform call builder.graph

/-- The builder after a call, whether it succeeded or not. -/
def run (builder : Builder) (call : Call) : Builder :=
  { builder with graph := (builder.outcome call).graph }

/-- The builder after some calls. -/
def runAll (builder : Builder) (calls : List Call) : Builder :=
  calls.foldl run builder

end Builder

end ComputeGraph
