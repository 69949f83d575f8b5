import GlobalMetadata.Detection
import GlobalMetadata.Document.Metadata
import GlobalMetadata.Document.View
import GlobalMetadata.Image.Container
import GlobalMetadata.Proofs.Growth
import GlobalMetadata.Proofs.Order
import GlobalMetadata.Proofs.Identity
import GlobalMetadata.Proofs.Term
import GlobalMetadata.Proofs.Lineage
import GlobalMetadata.Proofs.Soundness
import GlobalMetadata.Proofs.Display
import GlobalMetadata.Proofs.Meaning
import GlobalMetadata.Proofs.Refinement
import GlobalMetadata.Proofs.Denotation
import GlobalMetadata.Proofs.Members
import GlobalMetadata.Proofs.Reachable
import GlobalMetadata.Proofs.Semantics
import GlobalMetadata.Proofs.Universe
import GlobalMetadata.Proofs.Termination
import GlobalMetadata.Proofs.Outcome
import GlobalMetadata.Proofs.Creation
import GlobalMetadata.Proofs.Schedule
import GlobalMetadata.Proofs.OrderIndependence
import GlobalMetadata.Proofs.Overload
import GlobalMetadata.Proofs.Publication
import GlobalMetadata.Proofs.Visit
import GlobalMetadata.Proofs.Ledger
import GlobalMetadata.Proofs.Report
import GlobalMetadata.Proofs.Omission
import GlobalMetadata.Proofs.Ranges
import GlobalMetadata.Proofs.Decoding
import GlobalMetadata.Proofs.Isolation
import GlobalMetadata.Proofs.Corruption
import GlobalMetadata.Proofs.Encoding
import GlobalMetadata.Proofs.Blob
import GlobalMetadata.Proofs.RoundTrip
import GlobalMetadata.Proofs.Revision
import GlobalMetadata.Proofs.Nesting
import GlobalMetadata.Proofs.Exposure
import GlobalMetadata.Proofs.Fallible
import GlobalMetadata.Proofs.Reading
import GlobalMetadata.Proofs.Presence
import GlobalMetadata.Proofs.Axes
import GlobalMetadata.Proofs.Traversal
import GlobalMetadata.Proofs.Precedence
import GlobalMetadata.Proofs.Forest
import GlobalMetadata.Proofs.Storage
import GlobalMetadata.Proofs.Spelling
import GlobalMetadata.Proofs.Viewing
import GlobalMetadata.Proofs.Depth
import GlobalMetadata.Proofs.Repetition
import GlobalMetadata.Proofs.Rerun
import GlobalMetadata.Proofs.Atomicity
import GlobalMetadata.Proofs.Bound
import GlobalMetadata.Proofs.Diagnosis
import GlobalMetadata.Proofs.Materialization
import GlobalMetadata.Proofs.Stride
import GlobalMetadata.Proofs.Substitution
import GlobalMetadata.Proofs.Origin
import GlobalMetadata.Proofs.SelfReference
import GlobalMetadata.Proofs.Canonical
import GlobalMetadata.Proofs.Path
import GlobalMetadata.Proofs.Cause
import GlobalMetadata.Proofs.Follow
import GlobalMetadata.Proofs.Blame
import GlobalMetadata.Proofs.Inversion
import GlobalMetadata.Proofs.Arrays
import GlobalMetadata.Proofs.Utf8
import GlobalMetadata.Proofs.Texts
import GlobalMetadata.Proofs.Alike
import GlobalMetadata.Proofs.Footprint
import GlobalMetadata.Proofs.Indifference
import GlobalMetadata.Proofs.Redraft
import GlobalMetadata.Proofs.EmptyRanges
import GlobalMetadata.Proofs.Coherence
import GlobalMetadata.Proofs.VersionText
import GlobalMetadata.Proofs.Sequence
import GlobalMetadata.Proofs.NativeName
import GlobalMetadata.Proofs.Packing
