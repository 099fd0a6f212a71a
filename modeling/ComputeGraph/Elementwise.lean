import ComputeGraph.Binary64.Integral
import ComputeGraph.Kind
import ComputeGraph.Tensor.Basic

/-!
# Elementwise functions

The functions of one number that a node can apply to every element of its operand, and their
values. Logarithm and square root have two meanings outside their domain: the engine raises the
argument to the domain first, while arithmetic of doubles gives NaN or an infinity.

* `DomainPolicy` — which of the two is meant;
* `Elementwise.eval` — the value at a double;
* `Elementwise.fold` — the values over a tensor.
-/

namespace ComputeGraph

/-- What logarithm and square root mean outside their domain. -/
inductive DomainPolicy where
  /-- The argument is raised to `leastLogArgument`, or to zero. -/
  | engineSentinel
  /-- NaN and infinities as in the arithmetic of doubles. -/
  | ieee
deriving DecidableEq, Repr

/-- The name of a policy in descriptions. -/
def DomainPolicy.name : DomainPolicy → String
  | .engineSentinel => "engine_sentinel"
  | .ieee => "ieee"

/-- The policy with a given name. -/
def DomainPolicy.ofName? (name : String) : Option DomainPolicy :=
  [engineSentinel, ieee].find? fun policy => policy.name = name

/-- A function applied to every element. -/
inductive Elementwise where
  | identity | floor | ceil | round | relu | sigmoid | tanh | exp | log | sqrt | square | abs
deriving DecidableEq, Repr

namespace Elementwise

/-- The kind of the nodes that apply a function. -/
def kind : Elementwise → Kind
  | .identity => .identity
  | .floor => .floor
  | .ceil => .ceil
  | .round => .round
  | .relu => .relu
  | .sigmoid => .sigmoid
  | .tanh => .tanh
  | .exp => .exp
  | .log => .log
  | .sqrt => .sqrt
  | .square => .square
  | .abs => .abs

/-- The smallest argument that the engine takes a logarithm of. -/
def leastLogArgument : Float := 1e-37

/-- The value of a function. Rounding takes a half upwards. -/
def eval (policy : DomainPolicy) : Elementwise → Float → Float
  | .identity, x => x
  | .floor, x => Binary64.floor x
  | .ceil, x => Binary64.ceil x
  | .round, x => Binary64.floor (x + 0.5)
  | .relu, x => Binary64.atLeast 0 x
  | .sigmoid, x => 1 / (1 + (-x).exp)
  | .tanh, x => x.tanh
  | .exp, x => x.exp
  | .log, x =>
    match policy with
    | .engineSentinel => (Binary64.atLeast leastLogArgument x).log
    | .ieee => x.log
  | .sqrt, x =>
    match policy with
    | .engineSentinel => (Binary64.atLeast 0 x).sqrt
    | .ieee => x.sqrt
  | .square, x => x * x
  | .abs, x => Binary64.abs x

/-- The values of a function over a tensor. -/
def fold (policy : DomainPolicy) (f : Elementwise) (t : Tensor) : Tensor :=
  t.map (f.eval policy)

end Elementwise

/-- The elementwise function that nodes of a kind apply, if they apply one. -/
def Kind.elementwise? : Kind → Option Elementwise
  | .identity => some .identity
  | .floor => some .floor
  | .ceil => some .ceil
  | .round => some .round
  | .relu => some .relu
  | .sigmoid => some .sigmoid
  | .tanh => some .tanh
  | .exp => some .exp
  | .log => some .log
  | .sqrt => some .sqrt
  | .square => some .square
  | .abs => some .abs
  | _ => none

/-- Each elementwise function has one kind, and no other kind applies it. -/
theorem Kind.elementwise?_eq_some_iff (kind : Kind) (f : Elementwise) :
    kind.elementwise? = some f ↔ kind = f.kind := by
  cases kind <;> cases f <;> simp [elementwise?, Elementwise.kind]

end ComputeGraph
