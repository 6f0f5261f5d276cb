import Calculator.Tree.Depth
import Calculator.Tree.Equality
import Calculator.Tree.Dismantling
import Calculator.Main
import Calculator.Proofs.Tracing
import Calculator.Proofs.Grammar
import Calculator.Proofs.Facing
import Calculator.Proofs.Soundness
import Calculator.Proofs.Completeness
import Calculator.Proofs.Parsing
import Calculator.Proofs.FlatMachine
import Calculator.Proofs.ViablePrefix
import Calculator.Proofs.Spelling
import Calculator.Proofs.Tiling
import Calculator.Proofs.Contract
import Calculator.Proofs.Spacing
import Calculator.Proofs.Supply
import Calculator.Proofs.Delivery
import Calculator.Proofs.Derivation
import Calculator.Proofs.Linearisation
import Calculator.Proofs.Replay
import Calculator.Proofs.TraceShape
import Calculator.Proofs.Moves
import Calculator.Proofs.Accounting
import Calculator.Proofs.Rounding
import Calculator.Proofs.Positional
import Calculator.Proofs.Bits
import Calculator.Proofs.ReadBack
import Calculator.Proofs.PostorderText
import Calculator.Proofs.Leaves
import Calculator.Proofs.Coincidence
import Calculator.Proofs.Formula
import Calculator.Proofs.NestingLimit
import Calculator.Proofs.Concatenation
import Calculator.Proofs.Composition
import Calculator.Proofs.PlainText
import Calculator.Proofs.Reporting
import Calculator.Proofs.Arguments
import Calculator.Proofs.Evaluation
import Calculator.Proofs.Reconstruction
import Calculator.Proofs.WrittenNumbers
import Calculator.Proofs.Nearest
import Calculator.Proofs.Quantities
import Calculator.Proofs.LiteralValues
import Calculator.Proofs.ShortestDecimal
import Calculator.Proofs.ShortestText
import Calculator.Proofs.Comparison
import Calculator.Proofs.Release
import Calculator.Proofs.Ahead
import Calculator.Proofs.TracedFactors
import Calculator.Proofs.Height
import Calculator.Proofs.LongestPhrase
import Calculator.Proofs.Control
import Calculator.Proofs.Termination
