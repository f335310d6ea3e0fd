import ObjectQuery.Binary64.Reading
import ObjectQuery.Peg.Reading
import ObjectQuery.Json.Decode
import ObjectQuery.Query
import ObjectQuery.Operation.Scripted
import ObjectQuery.Selector.Encoding
import ObjectQuery.Config.Json
import ObjectQuery.Config.Toml
import ObjectQuery.Proofs.Peg.Packrat
import ObjectQuery.Proofs.Peg.Progress
import ObjectQuery.Proofs.Selector.Adequacy
import ObjectQuery.Proofs.Selector.Memoization
import ObjectQuery.Proofs.Selector.Positions
import ObjectQuery.Proofs.Selector.Brackets
import ObjectQuery.Proofs.Selector.Filters
import ObjectQuery.Proofs.Selector.Printing
import ObjectQuery.Proofs.Selector.Tiling
import ObjectQuery.Proofs.Evaluation.Steps
import ObjectQuery.Proofs.Evaluation.Pushing
import ObjectQuery.Proofs.Evaluation.Splitting
import ObjectQuery.Proofs.Evaluation.Builtins
import ObjectQuery.Proofs.Evaluation.Termination
import ObjectQuery.Proofs.Evaluation.Bound
import ObjectQuery.Proofs.Evaluation.ChildrenFilter
import ObjectQuery.Proofs.Resolution
import ObjectQuery.Proofs.Evaluation.Failures
import ObjectQuery.Proofs.Evaluation.Outcomes
import ObjectQuery.Proofs.Query.Invocations
import ObjectQuery.Proofs.Query.Selections
import ObjectQuery.Proofs.Matching
import ObjectQuery.Proofs.Evaluation.Filtering
import ObjectQuery.Proofs.Json.Equality
import ObjectQuery.Proofs.Context
import ObjectQuery.Proofs.Evaluation.Contents
import ObjectQuery.Proofs.Text.Digits
import ObjectQuery.Proofs.Toml.Scalars
import ObjectQuery.Proofs.Toml.Lines
import ObjectQuery.Proofs.Config.Toml
import ObjectQuery.Proofs.Binary64.Rounding
import ObjectQuery.Proofs.Binary64.Shortest
import ObjectQuery.Proofs.Binary64.Text
import ObjectQuery.Proofs.Json.Strings
import ObjectQuery.Proofs.Json.Numerals
import ObjectQuery.Proofs.Json.Reading
import ObjectQuery.Proofs.Selector.Encoding
import ObjectQuery.Proofs.Binary64.Nearest
import ObjectQuery.Proofs.Comparison
import ObjectQuery.Proofs.Text.Lowercase
import ObjectQuery.Proofs.Scalar
import ObjectQuery.Proofs.Attributes
import ObjectQuery.Proofs.IgnoringCase
import ObjectQuery.Proofs.Json.Canonical
import ObjectQuery.Proofs.Repetitions
import ObjectQuery.Proofs.Interchange
import ObjectQuery.Proofs.Evaluation.Repetitions
import ObjectQuery.Proofs.Evaluation.Stepping
import ObjectQuery.Proofs.Selector.Unions
import ObjectQuery.Proofs.Selector.Quotations
import ObjectQuery.Proofs.Indexing
import ObjectQuery.Proofs.Footprint
import ObjectQuery.Proofs.Config.Json
import ObjectQuery.Proofs.IntegerMatching
