import PairGrep.Main
import PairGrep.Session
import PairGrep.Proofs.Pair.Exactness
import PairGrep.Proofs.Pair.Shape
import PairGrep.Proofs.Pair.Arrays
import PairGrep.Proofs.Pair.Numbers
import PairGrep.Proofs.Pair.Spacing
import PairGrep.Proofs.Json.Grammar
import PairGrep.Proofs.Terms.Union
import PairGrep.Proofs.Terms.Malformed
import PairGrep.Proofs.Terms.WellFormed
import PairGrep.Proofs.Input.Valid
import PairGrep.Proofs.Input.Load
import PairGrep.Proofs.Input.Shapes
import PairGrep.Proofs.Input.Session
import PairGrep.Proofs.Pair.RoundTrip
import PairGrep.Proofs.CommandLine.Output
import PairGrep.Proofs.CommandLine.Arguments
import PairGrep.Proofs.Terms.Exact
import PairGrep.Proofs.Number.Notation
import PairGrep.Proofs.Pair.Order
import PairGrep.Proofs.Settings.Load
import PairGrep.Proofs.Number.Value
import PairGrep.Proofs.Search.Progress
import PairGrep.Proofs.Pair.Progress
