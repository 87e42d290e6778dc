import Reassembly.Delivery.Scripted
import Reassembly.Hub
import Reassembly.Proofs.Boundaries
import Reassembly.Proofs.Connection.Isolation
import Reassembly.Proofs.Hub.Chronicle
import Reassembly.Proofs.Hub.Conservation
import Reassembly.Proofs.Hub.Service
import Reassembly.Proofs.Hub.WakeUps
import Reassembly.Proofs.Interleaving
import Reassembly.Proofs.Request.Lines
import Reassembly.Proofs.RoundTrip
import Reassembly.Proofs.Segment.Lines
import Reassembly.Proofs.Stream.Dictation
import Reassembly.Proofs.Stream.ExactlyOnce
import Reassembly.Proofs.Stream.Filling
import Reassembly.Proofs.Stream.HeadSegments
import Reassembly.Proofs.Stream.HostLine
import Reassembly.Proofs.Stream.Lifetime
import Reassembly.Proofs.Stream.Manuscript
import Reassembly.Proofs.Stream.Received
import Reassembly.Proofs.Stream.Segmentation
import Reassembly.Proofs.Stream.Separation
import Reassembly.Proofs.Stream.Violations
import Reassembly.Proofs.Truncation
