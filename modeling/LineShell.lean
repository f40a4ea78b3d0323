import LineShell.Main
import LineShell.Word.InPlace
import LineShell.Command.InPlace
import LineShell.Rehearsal.Stage
import LineShell.Proofs.Reaping
import LineShell.Proofs.Wiring
import LineShell.Proofs.Rendering
import LineShell.Proofs.Reading.Defect
import LineShell.Proofs.Reading.Join
import LineShell.Proofs.Reading.Stretches
import LineShell.Proofs.Aliasing
import LineShell.Proofs.Session
import LineShell.Proofs.InPlace
import LineShell.Proofs.Indifference
import LineShell.Proofs.Ending
import LineShell.Proofs.Pipeline
import LineShell.Proofs.Descriptors
import LineShell.Proofs.Attachment
import LineShell.Proofs.Warnings
import LineShell.Proofs.Outcome
import LineShell.Proofs.Column
