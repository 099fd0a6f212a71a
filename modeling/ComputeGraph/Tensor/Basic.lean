import ComputeGraph.Shape.Basic

/-!
# Tensors

A tensor holds a double for each element of its shape, outermost axis first: the last axis runs
fastest. A tensor without axes holds one element. The elements are held in memory, so a machine word
counts them.
-/

namespace ComputeGraph

/-- Doubles laid out over a shape. -/
structure Tensor where
  shape : Extents
  data : Array Float
  size_data : data.size = shape.elementCount
  size_lt : data.size < UInt64.size
deriving DecidableEq

namespace Tensor

/-- The tensor with given elements, if there are as many as the shape asks for and a machine word
counts them. -/
def ofData? (shape : Extents) (data : Array Float) : Option Tensor :=
  if h : data.size = shape.elementCount ∧ data.size < UInt64.size then
    some ⟨shape, data, h.1, h.2⟩
  else none

/-- The tensor without axes that holds `x`. -/
def scalar (x : Float) : Tensor :=
  ⟨[], #[x], rfl, show 1 < UInt64.size by decide⟩

/-- The tensor with the same element everywhere. Where a machine word does not count the elements
there is none, and the result is the scalar. -/
def fill (shape : Extents) (x : Float) : Tensor :=
  if h : shape.elementCount < UInt64.size then
    ⟨shape, Array.replicate shape.elementCount x, Array.size_replicate, by
      rwa [Array.size_replicate]⟩
  else scalar x

/-- The shape of a tensor as a value: without axes it counts as one element on one axis. -/
def extents (t : Tensor) : Extents :=
  if t.shape = [] then [1] else t.shape

/-- The tensor with a function applied to each element. -/
def map (f : Float → Float) (t : Tensor) : Tensor :=
  ⟨t.shape, t.data.map f, by rw [Array.size_map]; exact t.size_data, by
    rw [Array.size_map]; exact t.size_lt⟩

end Tensor

end ComputeGraph
