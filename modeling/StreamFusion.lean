import StreamFusion.Proofs.Intake.Failures
import StreamFusion.Proofs.Intake.Finality
import StreamFusion.Proofs.Pipeline.Emptiness
import StreamFusion.Proofs.Pipeline.Indices
import StreamFusion.Proofs.Run.Emissions
import StreamFusion.Proofs.Run.Histories
import StreamFusion.Proofs.Run.Inside
import StreamFusion.Proofs.Session.Coherence
import StreamFusion.Proofs.Session.Cutting
import StreamFusion.Proofs.Session.Holes
import StreamFusion.Proofs.Session.Lives
import StreamFusion.Proofs.Session.OneShot
import StreamFusion.Proofs.Session.Repeating
import StreamFusion.Proofs.Session.Searching
import StreamFusion.Proofs.Session.SingleUse
import StreamFusion.Proofs.Session.Slicing
import StreamFusion.Proofs.Session.Terminals
import StreamFusion.Proofs.Text.Casing
import StreamFusion.Proofs.Text.Narrowing
import StreamFusion.Proofs.Text.Verbatim
import StreamFusion.Script.Report
