import ProviderMock.Session
import ProviderMock.Schema.Json
import ProviderMock.SourceRange.Json
import ProviderMock.Value.Json
import ProviderMock.Proofs.Aligned
import ProviderMock.Proofs.WellFormed
import ProviderMock.Proofs.Traversal
import ProviderMock.Proofs.Conversion
import ProviderMock.Proofs.Conformance
import ProviderMock.Proofs.Completion
import ProviderMock.Proofs.Soundness
import ProviderMock.Proofs.Noninterference
import ProviderMock.Proofs.Refinement
import ProviderMock.Proofs.Congruence
import ProviderMock.Proofs.Lifecycle
import ProviderMock.Proofs.Visits
import ProviderMock.Proofs.Messages
import ProviderMock.Proofs.Occurrences
import ProviderMock.Proofs.Reports
import ProviderMock.Proofs.Pruning
import ProviderMock.Proofs.Broadcast
import ProviderMock.Proofs.Reordering
import ProviderMock.Proofs.Saturation
import ProviderMock.Proofs.Filling
import ProviderMock.Proofs.Idempotence
import ProviderMock.Proofs.Shape
import ProviderMock.Proofs.Draws
import ProviderMock.Proofs.Histories
import ProviderMock.Proofs.Everywhere
import ProviderMock.Proofs.Sameness
import ProviderMock.Proofs.Rounding
import ProviderMock.Proofs.Decoding
import ProviderMock.Proofs.RoundTrip
import ProviderMock.Proofs.Pipeline
import ProviderMock.Proofs.Retyping
import ProviderMock.Proofs.Alike
import ProviderMock.Proofs.SameTargets
import ProviderMock.Proofs.Extensionality
import ProviderMock.Proofs.WrittenTypes
import ProviderMock.Proofs.Grammar
import ProviderMock.Proofs.Layout
import ProviderMock.Proofs.Readings
import ProviderMock.Proofs.Reinference
import ProviderMock.Proofs.Apartness
import ProviderMock.Proofs.Places
import ProviderMock.Proofs.WrittenDocuments
import ProviderMock.Proofs.WrittenSchemas
import ProviderMock.Proofs.DrawingOrder
import ProviderMock.Proofs.Rereading
import ProviderMock.Proofs.Projection
import ProviderMock.Proofs.FirstFailures
import ProviderMock.Proofs.ConversionFailures
import ProviderMock.Proofs.DecodingFailures
import ProviderMock.Proofs.Equivalence
import ProviderMock.Proofs.Unknowns
import ProviderMock.Proofs.Homogeneity
import ProviderMock.Proofs.Sequences
import ProviderMock.Proofs.GeneratedTypes
import ProviderMock.Proofs.Duplicates
import ProviderMock.Proofs.Legibility
import ProviderMock.Proofs.Spelling
import ProviderMock.Proofs.Environments
import ProviderMock.Proofs.Permutations
