import TagFlow.Encoding.Graph
import TagFlow.Engine
import TagFlow.Proofs.Graph.Producers
import TagFlow.Proofs.Evaluation.Meaning
import TagFlow.Proofs.Evaluation.PipeAgreement
import TagFlow.Proofs.Evaluation.Unfolding
import TagFlow.Proofs.Evaluation.Agreement
import TagFlow.Proofs.Validation.Checked
import TagFlow.Proofs.Validation.Findings
import TagFlow.Proofs.Validation.Precision
import TagFlow.Proofs.Evaluation.Safety
import TagFlow.Proofs.Evaluation.Cycles
import TagFlow.Proofs.Evaluation.Demand
import TagFlow.Proofs.Operation.Library
import TagFlow.Proofs.Operation.Results
import TagFlow.Proofs.Operation.Signature
import TagFlow.Proofs.Typing.Monotone
import TagFlow.Proofs.Typing.Soundness
import TagFlow.Proofs.Mint
import TagFlow.Proofs.Spec.Draft
import TagFlow.Proofs.Spec.Lowering
import TagFlow.Proofs.Spec.Scoping
import TagFlow.Proofs.Spec.Built
import TagFlow.Proofs.Typing.Recorded
import TagFlow.Proofs.Spec.Reading
import TagFlow.Proofs.Spec.Correctness
import TagFlow.Proofs.Spec.Acceptance
import TagFlow.Proofs.Spec.Structure
import TagFlow.Proofs.Spec.Defaults
import TagFlow.Proofs.Spec.Order
import TagFlow.Proofs.Evaluation.Coupling
import TagFlow.Proofs.Evaluation.Provenance
import TagFlow.Proofs.Evaluation.Panics
import TagFlow.Proofs.Evaluation.Readiness
import TagFlow.Proofs.Evaluation.WriteBack
import TagFlow.Proofs.Validation.References
import TagFlow.Proofs.Spec.References
import TagFlow.Proofs.Typing.Depth
import TagFlow.Proofs.Encoding.RoundTrip
import TagFlow.Proofs.Graph.Histories
import TagFlow.Proofs.Encoding.Loading
import TagFlow.Proofs.Evaluation.Preservation
import TagFlow.Proofs.Evaluation.Flow
import TagFlow.Proofs.Validation.Marking
import TagFlow.Proofs.Operation.Concatenation
import TagFlow.Proofs.Mint.Histories
import TagFlow.Proofs.Spec.Sharing
import TagFlow.Proofs.Spec.Adapting
import TagFlow.Proofs.Spec.Uses
