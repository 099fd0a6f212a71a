import ComputeGraph.Shape.Text
import ComputeGraph.Shape.Json
import ComputeGraph.Shape.Broadcast
import ComputeGraph.Shape.Product
import ComputeGraph.Shape.Reshape
import ComputeGraph.Tensor.Literal
import ComputeGraph.Elementwise
import ComputeGraph.Graph.Order
import ComputeGraph.Graph.Description
import ComputeGraph.Builder.Basic
import ComputeGraph.Proofs.Graph.Append
import ComputeGraph.Proofs.Builder.Growth
import ComputeGraph.Proofs.Graph.Tables
import ComputeGraph.Proofs.Graph.TopologicalOrder
import ComputeGraph.Proofs.Graph.Outputs
import ComputeGraph.Proofs.Graph.Requirements
import ComputeGraph.Proofs.Builder.Requests
import ComputeGraph.Proofs.Shape.Broadcast
import ComputeGraph.Proofs.Shape.Join
import ComputeGraph.Proofs.Shape.Product
import ComputeGraph.Proofs.Shape.ReshapeChain
import ComputeGraph.Proofs.Tensor.Matrix
import ComputeGraph.Proofs.Builder.Fits
import ComputeGraph.Proofs.Builder.Agreement
import ComputeGraph.Proofs.Builder.Axes
import ComputeGraph.Proofs.Builder.Effect
import ComputeGraph.Proofs.Builder.OperandOrder
import ComputeGraph.Proofs.Builder.Products
import ComputeGraph.Proofs.Builder.Leniency
import ComputeGraph.Proofs.Builder.Completeness
import ComputeGraph.Proofs.Builder.Correspondence
import ComputeGraph.Proofs.Builder.Lockstep
import ComputeGraph.Proofs.Builder.Folding
import ComputeGraph.Proofs.Builder.FoldedText
import ComputeGraph.Proofs.Builder.NamePrefix
import ComputeGraph.Proofs.Builder.Commute
import ComputeGraph.Proofs.Builder.CallerNames
import ComputeGraph.Proofs.Builder.DynamicAxes
import ComputeGraph.Proofs.Shape.CountOrder
import ComputeGraph.Proofs.Builder.Views
import ComputeGraph.Proofs.Builder.Parameters
import ComputeGraph.Proofs.Builder.Numbers
import ComputeGraph.Proofs.Builder.GeneratedNames
import ComputeGraph.Proofs.Shape.RoundTrip
import ComputeGraph.Proofs.Json.RoundTrip
import ComputeGraph.Proofs.Shape.Json
import ComputeGraph.Proofs.Builder.Options
import ComputeGraph.Proofs.Graph.Description
