import ViewTree.Command
import ViewTree.Tracker
import ViewTree.Main
import ViewTree.Proofs.Concatenation
import ViewTree.Proofs.InitRoutine
import ViewTree.Proofs.Capture.Property
import ViewTree.Proofs.Steps
import ViewTree.Proofs.FreeNames
import ViewTree.Proofs.UpdateRoutine
import ViewTree.Proofs.UpdateScope
import ViewTree.Proofs.Reading.Results
import ViewTree.Proofs.Reading.Shape
import ViewTree.Proofs.Reading.Productions
import ViewTree.Proofs.Reading.Files
import ViewTree.Proofs.MadeNames
import ViewTree.Proofs.OwnNames
import ViewTree.Proofs.Reading.Enclosed
import ViewTree.Proofs.Pasting.Arguments
import ViewTree.Proofs.Pasting.Lines
import ViewTree.Proofs.Pasting.Calls
import ViewTree.Proofs.Pasting.Pages
import ViewTree.Proofs.Totality
import ViewTree.Proofs.Signatures
import ViewTree.Proofs.Selection
import ViewTree.Proofs.Coverage
import ViewTree.Proofs.Headers
import ViewTree.Proofs.Chunks.Productions
import ViewTree.Proofs.Recovery
import ViewTree.Proofs.Spelling
import ViewTree.Proofs.Printing.RoundTrip
import ViewTree.Proofs.Definitions
import ViewTree.Proofs.Guards
import ViewTree.Proofs.Output
import ViewTree.Proofs.RepeatedNames
import ViewTree.Proofs.Settings.Loading
import ViewTree.Proofs.Elements.Fields
import ViewTree.Proofs.Elements.Origins
import ViewTree.Proofs.Elements.Places
import ViewTree.Proofs.Elements.Texts
import ViewTree.Proofs.Excerpts
import ViewTree.Proofs.Writers
import ViewTree.Proofs.ModelFields
import ViewTree.Proofs.Checking
import ViewTree.Proofs.Settings.Discovery
import ViewTree.Proofs.Connecting
import ViewTree.Proofs.Linting
import ViewTree.Proofs.ChangeTracking
import ViewTree.Proofs.Constants
import ViewTree.Proofs.Literals
import ViewTree.Proofs.Traversals
import ViewTree.Proofs.Progress.Components
import ViewTree.Proofs.InPlace.Tokens
