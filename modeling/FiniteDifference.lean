import FiniteDifference.Argument.Basic
import FiniteDifference.Argument.Fraction
import FiniteDifference.Argument.Nested
import FiniteDifference.Argument.Number
import FiniteDifference.Argument.Uniform
import FiniteDifference.Argument.Written
import FiniteDifference.Bandwidth.Choice
import FiniteDifference.Bandwidth.Label
import FiniteDifference.Bandwidth.Optimal
import FiniteDifference.Bandwidth.PowerOfTwo
import FiniteDifference.Bandwidth.Strategy
import FiniteDifference.Cache.Basic
import FiniteDifference.Cache.Requests
import FiniteDifference.Derivative.Evaluator
import FiniteDifference.Derivative.Multivariate
import FiniteDifference.Derivative.Univariate
import FiniteDifference.Evaluation
import FiniteDifference.Fault.Basic
import FiniteDifference.Fault.Lookup
import FiniteDifference.Fault.Message
import FiniteDifference.Fault.Signature
import FiniteDifference.Fault.Told
import FiniteDifference.Journal
import FiniteDifference.Number.Binary64
import FiniteDifference.Number.Layout
import FiniteDifference.Number.Reading
import FiniteDifference.Number.Shortest
import FiniteDifference.Position
import FiniteDifference.Proofs.Argument.Conversions
import FiniteDifference.Proofs.Argument.Extents
import FiniteDifference.Proofs.Argument.Vectors
import FiniteDifference.Proofs.Bandwidth.AdaptiveCalls
import FiniteDifference.Proofs.Bandwidth.AxisWise
import FiniteDifference.Proofs.Bandwidth.Confined
import FiniteDifference.Proofs.Bandwidth.Construction
import FiniteDifference.Proofs.Bandwidth.LeastPower
import FiniteDifference.Proofs.Bandwidth.Minimality
import FiniteDifference.Proofs.Bandwidth.Positive
import FiniteDifference.Proofs.Bandwidth.RoundUp
import FiniteDifference.Proofs.Bandwidth.RoundedAxes
import FiniteDifference.Proofs.Cache.Balance
import FiniteDifference.Proofs.Cache.Bookkeeping
import FiniteDifference.Proofs.Cache.Composed
import FiniteDifference.Proofs.Cache.Confined
import FiniteDifference.Proofs.Cache.Lookups
import FiniteDifference.Proofs.Cache.Order
import FiniteDifference.Proofs.Cache.Returns
import FiniteDifference.Proofs.Cache.Sound
import FiniteDifference.Proofs.Cache.Tallied
import FiniteDifference.Proofs.Cache.Tally
import FiniteDifference.Proofs.Cache.Transparency
import FiniteDifference.Proofs.Cache.Yields
import FiniteDifference.Proofs.Coefficients.ClosedForms
import FiniteDifference.Proofs.Coefficients.ConsecutiveOffsets
import FiniteDifference.Proofs.Coefficients.Filling
import FiniteDifference.Proofs.Coefficients.Interpolation
import FiniteDifference.Proofs.Coefficients.Layout
import FiniteDifference.Proofs.Coefficients.LeadingMoment
import FiniteDifference.Proofs.Coefficients.LinearSystem
import FiniteDifference.Proofs.Coefficients.Mirror
import FiniteDifference.Proofs.Coefficients.Moments
import FiniteDifference.Proofs.Coefficients.NodePolynomial
import FiniteDifference.Proofs.Coefficients.Solvable
import FiniteDifference.Proofs.Coefficients.Tensor
import FiniteDifference.Proofs.Coefficients.TruncationOrder
import FiniteDifference.Proofs.Coefficients.Uniqueness
import FiniteDifference.Proofs.Coefficients.ValueAxes
import FiniteDifference.Proofs.Coefficients.ZeroPattern
import FiniteDifference.Proofs.Derivative.Checks
import FiniteDifference.Proofs.Derivative.Crews
import FiniteDifference.Proofs.Derivative.Places
import FiniteDifference.Proofs.Derivative.SampledPoints
import FiniteDifference.Proofs.Derivative.WorkerCounts
import FiniteDifference.Proofs.Evaluation.Divisors
import FiniteDifference.Proofs.Evaluation.Outcome
import FiniteDifference.Proofs.Exact.Arithmetic
import FiniteDifference.Proofs.Exact.Exactness
import FiniteDifference.Proofs.Exact.GridPoints
import FiniteDifference.Proofs.Exact.LeadingError
import FiniteDifference.Proofs.Exact.MixedPartial
import FiniteDifference.Proofs.Exact.Multivariate
import FiniteDifference.Proofs.Exact.Nested
import FiniteDifference.Proofs.Exact.Scaling
import FiniteDifference.Proofs.Exact.Univariate
import FiniteDifference.Proofs.Exact.ValueAxes
import FiniteDifference.Proofs.Number.Binade
import FiniteDifference.Proofs.Number.Comparisons
import FiniteDifference.Proofs.Number.Powers
import FiniteDifference.Proofs.Number.Range
import FiniteDifference.Proofs.Number.Words
import FiniteDifference.Proofs.Outcomes
import FiniteDifference.Proofs.Real.Arithmetic
import FiniteDifference.Proofs.RowMajor.Interleaving
import FiniteDifference.Proofs.RowMajor.Inverse
import FiniteDifference.Proofs.RowMajor.Order
import FiniteDifference.Proofs.RowMajor.Ravel
import FiniteDifference.Proofs.RowMajor.Traversal
import FiniteDifference.Proofs.RowMajor.Writing
import FiniteDifference.Proofs.Sampling.Answers
import FiniteDifference.Proofs.Sampling.Calls
import FiniteDifference.Proofs.Sampling.Outcomes
import FiniteDifference.Proofs.Sampling.Pool
import FiniteDifference.Proofs.Sampling.Single
import FiniteDifference.Proofs.Sampling.Stacking
import FiniteDifference.Proofs.Sampling.Values
import FiniteDifference.Proofs.Stencil.Accepted
import FiniteDifference.Proofs.Stencil.Grid
import FiniteDifference.Proofs.Stencil.Mirror
import FiniteDifference.Quantity
import FiniteDifference.Sampling
import FiniteDifference.Sampling.Arithmetic
import FiniteDifference.Sampling.Broadcast
import FiniteDifference.Sampling.Cell
import FiniteDifference.Sampling.Formula
import FiniteDifference.Scalar
import FiniteDifference.Scalar.Binary64
import FiniteDifference.Scalar.Exact
import FiniteDifference.Session
import FiniteDifference.Stencil.Basic
import FiniteDifference.Stencil.Coefficients
import FiniteDifference.Stencil.Construction
import FiniteDifference.Stencil.Exact
import FiniteDifference.Stencil.Filling
import FiniteDifference.Stencil.Indexing
import FiniteDifference.Stencil.Listing
import FiniteDifference.Stencil.RowMajor
import FiniteDifference.Stencil.System
import FiniteDifference.Stencil.Tensor
import FiniteDifference.Summation
import FiniteDifference.Text.Blank
import FiniteDifference.Text.Digit
import FiniteDifference.Text.Printable
import FiniteDifference.Text.Quoted
import FiniteDifference.Text.Symbol
import FiniteDifference.Validation
import FiniteDifference.Workers
import FiniteDifference.Workers.Task
