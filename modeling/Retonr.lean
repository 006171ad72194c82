import Retonr.Proofs.Armor
import Retonr.Proofs.ArtifactSetLifecycle
import Retonr.Proofs.ArtifactSetShape
import Retonr.Proofs.BuildProtocol
import Retonr.Proofs.CandidateOutput
import Retonr.Proofs.CargoArchive
import Retonr.Proofs.ClaimComparisonDuality
import Retonr.Proofs.ClaimEvidence
import Retonr.Proofs.Der
import Retonr.Proofs.DigitCoverage
import Retonr.Proofs.DocumentCatalog
import Retonr.Proofs.DocumentReview
import Retonr.Proofs.EditorialComparison
import Retonr.Proofs.EngineRecords
import Retonr.Proofs.Fidelity
import Retonr.Proofs.Gguf
import Retonr.Proofs.GroundedShadow
import Retonr.Proofs.IdentityCandidate
import Retonr.Proofs.InPlaceCommit
import Retonr.Proofs.Inventory
import Retonr.Proofs.LintLookup
import Retonr.Proofs.ManagedInput
import Retonr.Proofs.OpenPgp
import Retonr.Proofs.OrderIndependence
import Retonr.Proofs.RemovalRecovery
import Retonr.Proofs.Render
import Retonr.Proofs.Scorecard
import Retonr.Proofs.SockDiag
import Retonr.Proofs.Suite
