import Criteria.Cursor.Move
import Criteria.Main
import Criteria.Operand.Measures
import Criteria.Operation
import Criteria.Outcome
import Criteria.Pointer
import Criteria.Proofs.Canonical
import Criteria.Proofs.Complement
import Criteria.Proofs.Composition
import Criteria.Proofs.Evaluation
import Criteria.Proofs.Extension
import Criteria.Proofs.Inversion
import Criteria.Proofs.Layout.Spacing
import Criteria.Proofs.Layout.Spans
import Criteria.Proofs.Leaves
import Criteria.Proofs.Registering
import Criteria.Proofs.Requoting.Reading
import Criteria.Proofs.Collating
import Criteria.Proofs.Comparison.Written
import Criteria.Proofs.Comparison.Families
import Criteria.Proofs.Scalar.Symmetry
import Criteria.Proofs.Comparison.Mirroring
import Criteria.Proofs.Comparison.Trichotomy
import Criteria.Proofs.Traversal
import Criteria.Proofs.Comparison.Priority
import Criteria.Proofs.Comparison.Literal
import Criteria.Proofs.Layout.Faults
import Criteria.Proofs.Scalar.Reflexivity
import Criteria.Proofs.Text.Lowercase
import Criteria.Proofs.Number.Whole
import Criteria.Proofs.Number.Grammar
import Criteria.Proofs.Scalar.IgnoringCase
import Criteria.Proofs.Symbol.Written
import Criteria.Proofs.Comparison.Standing
import Criteria.Proofs.Symbol.Addressing
import Criteria.Proofs.Scanning.Groups
import Criteria.Proofs.Scanning.Splitting
import Criteria.Proofs.Scanning.Skipping
import Criteria.Proofs.Scanning.Moves
import Criteria.Proofs.Symbol.Grammar
import Criteria.Proofs.Strictness
import Criteria.Proofs.CommandLine
