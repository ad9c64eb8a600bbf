import DiagramView.Main
import DiagramView.Session.Scripted
import DiagramView.Proofs.Discipline
import DiagramView.Proofs.LifeCycle
import DiagramView.Proofs.Leftovers
import DiagramView.Proofs.Noninterference
import DiagramView.Proofs.Pipeline
import DiagramView.Proofs.Reentry
import DiagramView.Proofs.Strays
import DiagramView.Proofs.StoredForm
import DiagramView.Proofs.Isolation
import DiagramView.Proofs.Normalization
import DiagramView.Proofs.Revision
import DiagramView.Proofs.Transparency
import DiagramView.Proofs.KeywordGate
import DiagramView.Proofs.CanonicalTags
import DiagramView.Proofs.EditFrame
import DiagramView.Proofs.Overrides
import DiagramView.Proofs.Arguments
import DiagramView.Proofs.Renderings
import DiagramView.Proofs.Indents
import DiagramView.Proofs.Sweeping
