import Conformance.Operation
import Conformance.Value.Construction
import Conformance.Proofs.Reach
import Conformance.Proofs.Verdicts
import Conformance.Proofs.Visits
import Conformance.Proofs.Calls
import Conformance.Proofs.Rows
import Conformance.Proofs.Extras
import Conformance.Proofs.Enforcement
import Conformance.Proofs.Steadiness
import Conformance.Proofs.Streams
import Conformance.Proofs.Repetition
import Conformance.Proofs.Parallel
import Conformance.Proofs.Containment
import Conformance.Proofs.Decoration
import Conformance.Proofs.Parts
import Conformance.Proofs.Sources
import Conformance.Proofs.Library
import Conformance.Proofs.PlainData
import Conformance.Proofs.Overlays
import Conformance.Proofs.Layout
import Conformance.Proofs.Flattening
import Conformance.Proofs.Reconfiguration
import Conformance.Proofs.Copies
import Conformance.Proofs.Reuse
import Conformance.Proofs.Outcomes
import Conformance.Proofs.Refusals
import Conformance.Proofs.Combinators
import Conformance.Proofs.Collections
import Conformance.Proofs.Moments
import Conformance.Proofs.PartialReading
import Conformance.Proofs.MalformedSchemas
import Conformance.Proofs.ExactKeys
import Conformance.Proofs.MalformedExplanations
import Conformance.Proofs.DecidedWalks
import Conformance.Proofs.Reordering
import Conformance.Proofs.SelfCheck
import Conformance.Proofs.KeyAgreement
import Conformance.Proofs.Precedence
import Conformance.Proofs.Cards
import Conformance.Proofs.Lines
import Conformance.Proofs.MessageLines
