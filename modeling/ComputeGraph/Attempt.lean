import ComputeGraph.Graph.Basic
import ComputeGraph.Shape.Engine

/-!
# Attempts and their log

Work on a graph leaves records of what it does. An attempt is a result or an error together with
the records left on the way, which stay if the attempt fails.

* `LogRecord` — what is recorded, with its level and text;
* `Attempt` — a computation that may fail and leaves records.

**The result of attempts in sequence does not depend on their records:** `result_bind`.
-/

namespace ComputeGraph

/-- Something worth recording. -/
inductive LogRecord where
  /-- A shape was put into the order of the engine. -/
  | reordered (host : Shape) (engine : EngineShape)
  /-- The shape of an output could not be found and is left open. -/
  | shapeUnknown (output : String) (cause : Error)
  /-- A function was applied to a literal of the given shape. -/
  | folded (kind : Kind) (shape : Extents)
  /-- A node was appended. -/
  | added (node : Node)

namespace LogRecord

/-- How important a record is. -/
def level : LogRecord → String
  | .reordered .. => "TRACE"
  | .shapeUnknown .. => "WARN"
  | .folded .. => "DEBUG"
  | .added .. => "DEBUG"

/-- The ids of nodes in brackets. -/
def idsText (ids : List NodeId) : String :=
  "[" ++ ", ".intercalate (ids.map fun id => "NodeId(" ++ id.repr ++ ")") ++ "]"

/-- What a record says. -/
def text : LogRecord → String
  | .reordered host engine =>
    "host shape " ++ host.text ++ " -> engine shape " ++ engine.description
  | .shapeUnknown output cause =>
    "leaving output shape of " ++ output ++ " unknown: " ++ cause.message
  | .folded kind shape =>
    "folded " ++ kind.engineName ++ " over a literal of shape " ++ shape.text
  | .added node =>
    "added " ++ node.kind.engineName ++ " node " ++ node.displayName ++ " with inputs " ++
      idsText node.inputs

end LogRecord

/-- A result or an error, and the records left on the way to it. -/
structure Attempt (α : Type) where
  log : List LogRecord
  result : Except Error α

namespace Attempt

variable {α β : Type}

/-- Nothing is recorded, whatever the result. -/
def ofExcept (result : Except Error α) : Attempt α :=
  ⟨[], result⟩

/-- Leaves a record. -/
def record (entry : LogRecord) : Attempt Unit :=
  ⟨[entry], .ok ()⟩

/-- Goes on with a result; an error ends the attempt. -/
def andThen (x : Attempt α) (f : α → Attempt β) : Attempt β :=
  match x.result with
  | .error error => ⟨x.log, .error error⟩
  | .ok a => ⟨x.log ++ (f a).log, (f a).result⟩

instance : Monad Attempt where
  pure a := ⟨[], .ok a⟩
  bind := andThen

instance : MonadLift (Except Error) Attempt where
  monadLift := ofExcept

/-- Fails at once. -/
def fail (error : Error) : Attempt α :=
  ⟨[], .error error⟩

theorem result_bind (x : Attempt α) (f : α → Attempt β) :
    (x >>= f).result = x.result.bind fun a => (f a).result := by
  show (andThen x f).result = _
  unfold andThen
  cases x.result <;> rfl

theorem result_pure (a : α) : (pure a : Attempt α).result = .ok a := rfl

theorem result_lift (x : Except Error α) : (liftM x : Attempt α).result = x := rfl

theorem result_record (entry : LogRecord) : (record entry).result = .ok () := rfl

/-- Puts the shape of a stored tensor into the order of the engine and records it. -/
def toEngine (shape : Shape) : Attempt EngineShape := do
  record (.reordered shape shape.toEngine)
  return shape.toEngine

/-- A shape that cannot be found is an error if `strict` is set, and otherwise recorded and left
open. -/
def shapeOrUnknown (strict : Bool) (output : String) (shape : Except Error (Option Extents)) :
    Attempt (Option Extents) :=
  match shape with
  | .ok shape => pure shape
  | .error error =>
    if strict then fail error
    else do
      record (.shapeUnknown output error)
      return none

end Attempt

end ComputeGraph
