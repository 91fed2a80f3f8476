import ComputeRelay.Bytes.Lemmas
import ComputeRelay.Json.Lemmas
import ComputeRelay.Main
import ComputeRelay.Proofs.Abandonment
import ComputeRelay.Proofs.Attachment
import ComputeRelay.Proofs.Bindings
import ComputeRelay.Proofs.Canonical
import ComputeRelay.Proofs.Charges
import ComputeRelay.Proofs.Contiguity
import ComputeRelay.Proofs.Deadlines
import ComputeRelay.Proofs.DroppedBundles
import ComputeRelay.Proofs.Endings
import ComputeRelay.Proofs.Endpoints
import ComputeRelay.Proofs.Expiry
import ComputeRelay.Proofs.Filling
import ComputeRelay.Proofs.Integrity
import ComputeRelay.Proofs.NonceOrder
import ComputeRelay.Proofs.OrderFreedom
import ComputeRelay.Proofs.Placement
import ComputeRelay.Proofs.Pricing
import ComputeRelay.Proofs.Rejections
import ComputeRelay.Proofs.Repricing
import ComputeRelay.Proofs.SequenceNumbers
import ComputeRelay.Proofs.ServiceReplies
import ComputeRelay.Proofs.SignedResponses
import ComputeRelay.Proofs.SimulatedCache
import ComputeRelay.Proofs.Tickets
import ComputeRelay.Proofs.Verdicts
import ComputeRelay.Proofs.WrittenForms
import ComputeRelay.Rehearsal.Queue
import ComputeRelay.Rehearsal.Relay
import ComputeRelay.Rehearsal.Shell
import ComputeRelay.Rehearsal.Writer
