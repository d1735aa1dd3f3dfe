import BagAlgebra.Builder
import BagAlgebra.Callback.Call
import BagAlgebra.Callback.Code
import BagAlgebra.Callback.Literal
import BagAlgebra.Callback.Signature
import BagAlgebra.Event
import BagAlgebra.Expr.Build
import BagAlgebra.Expr.Eval
import BagAlgebra.Fault
import BagAlgebra.Number.Arithmetic
import BagAlgebra.Number.Binary64
import BagAlgebra.Number.Decimal
import BagAlgebra.Number.Numeral
import BagAlgebra.Operator
import BagAlgebra.Proofs.Callback.Parameters
import BagAlgebra.Proofs.Callback.Quiet
import BagAlgebra.Proofs.Eval.Compared
import BagAlgebra.Proofs.Eval.Congruence
import BagAlgebra.Proofs.Eval.Denotation
import BagAlgebra.Proofs.Eval.Determined
import BagAlgebra.Proofs.Eval.Effects
import BagAlgebra.Proofs.Eval.Faults
import BagAlgebra.Proofs.Eval.Images
import BagAlgebra.Proofs.Eval.Nested
import BagAlgebra.Proofs.Eval.Order
import BagAlgebra.Proofs.Eval.Pairing
import BagAlgebra.Proofs.Eval.Passes
import BagAlgebra.Proofs.Eval.Pure
import BagAlgebra.Proofs.Eval.RowWise
import BagAlgebra.Proofs.Eval.Shape
import BagAlgebra.Proofs.Eval.Strategy
import BagAlgebra.Proofs.Identity.Calls
import BagAlgebra.Proofs.Identity.Cells
import BagAlgebra.Proofs.Identity.InStep
import BagAlgebra.Proofs.Identity.Objects
import BagAlgebra.Proofs.Identity.Renaming
import BagAlgebra.Proofs.Identity.Trees
import BagAlgebra.Proofs.Identity.Views
import BagAlgebra.Proofs.Law.Bracketing
import BagAlgebra.Proofs.Law.Cancellation
import BagAlgebra.Proofs.Law.Deferral
import BagAlgebra.Proofs.Law.Distribution
import BagAlgebra.Proofs.Law.Fusion
import BagAlgebra.Proofs.Law.Materialisation
import BagAlgebra.Proofs.Law.Monotonicity
import BagAlgebra.Proofs.Law.NestedFilters
import BagAlgebra.Proofs.Law.Partition
import BagAlgebra.Proofs.Law.PushDown
import BagAlgebra.Proofs.Law.ThetaJoin
import BagAlgebra.Proofs.Number.Exact
import BagAlgebra.Proofs.Row.Covering
import BagAlgebra.Proofs.Row.Equivalence
import BagAlgebra.Proofs.Row.Matching
import BagAlgebra.Proofs.Row.Misfit
import BagAlgebra.Proofs.Row.Uniform
import BagAlgebra.Proofs.Run.Answers
import BagAlgebra.Proofs.Run.InStep
import BagAlgebra.Proofs.Run.Stable
import BagAlgebra.Proofs.Script.Evaluations
import BagAlgebra.Proofs.Script.Frames
import BagAlgebra.Proofs.Script.Isolation
import BagAlgebra.Proofs.Script.Names
import BagAlgebra.Proofs.Script.Provenance
import BagAlgebra.Proofs.Script.Sessions
import BagAlgebra.Proofs.Script.Terms
import BagAlgebra.Proofs.Table.Aligned
import BagAlgebra.Proofs.Table.Columns
import BagAlgebra.Proofs.Table.Headers
import BagAlgebra.Proofs.Table.Layout
import BagAlgebra.Proofs.Table.Records
import BagAlgebra.Proofs.Table.Refusal
import BagAlgebra.Proofs.Table.Separated
import BagAlgebra.Proofs.Table.Splitting
import BagAlgebra.Proofs.Tree.Built
import BagAlgebra.Proofs.Tree.Chains
import BagAlgebra.Proofs.Tree.Checks
import BagAlgebra.Proofs.Tree.Context
import BagAlgebra.Proofs.Tree.Equality
import BagAlgebra.Proofs.Tree.Fit
import BagAlgebra.Proofs.Tree.Leaves
import BagAlgebra.Proofs.Tree.Links
import BagAlgebra.Proofs.Tree.Nodes
import BagAlgebra.Proofs.Tree.Parts
import BagAlgebra.Proofs.Tree.Requests
import BagAlgebra.Proofs.Tree.Skeletons
import BagAlgebra.Proofs.Tree.Steps
import BagAlgebra.Proofs.Walkthrough.Calls
import BagAlgebra.Proofs.Walkthrough.Chain
import BagAlgebra.Proofs.Walkthrough.Page
import BagAlgebra.Proofs.Walkthrough.Reports
import BagAlgebra.Proofs.Walkthrough.Visits
import BagAlgebra.Row.Shape
import BagAlgebra.Row.Uniform
import BagAlgebra.Run
import BagAlgebra.Script.Cell
import BagAlgebra.Script.Step
import BagAlgebra.Script.Term
import BagAlgebra.Table.Cells
import BagAlgebra.Table.Csv
import BagAlgebra.Table.Pretty
import BagAlgebra.Table.Records
import BagAlgebra.Text.Blank
import BagAlgebra.Text.Printable
import BagAlgebra.Text.Quoted
import BagAlgebra.Value.Arithmetic
import BagAlgebra.Value.Basic
import BagAlgebra.Value.Display
import BagAlgebra.Value.Match
import BagAlgebra.Value.Objects
import BagAlgebra.Value.Order
import BagAlgebra.Value.Sequence
import BagAlgebra.Value.Span
import BagAlgebra.Walkthrough.Call
import BagAlgebra.Walkthrough.Page
import BagAlgebra.Walkthrough.Stages
import BagAlgebra.Proofs.Run.Walks
import BagAlgebra.Proofs.Table.Sources
