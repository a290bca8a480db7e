import DiagramStream.Tools
import DiagramStream.CommandLine
import DiagramStream.Shelf
import DiagramStream.Main
import DiagramStream.Proofs.Document
import DiagramStream.Proofs.Parsing
import DiagramStream.Proofs.Exchange.Messages
import DiagramStream.Proofs.Exchange.Batches
import DiagramStream.Proofs.Exchange.Participants
import DiagramStream.Proofs.Exchange.Activation
import DiagramStream.Proofs.Graph.Acceptance
import DiagramStream.Proofs.Graph.Edges
import DiagramStream.Proofs.Graph.Nodes
import DiagramStream.Proofs.Graph.Strict
import DiagramStream.Proofs.Audit.Agreement
import DiagramStream.Proofs.Canvas.Queries
import DiagramStream.Proofs.Diagnosis
import DiagramStream.Proofs.Roster.Bindings
import DiagramStream.Proofs.Scan.Line
import DiagramStream.Proofs.Scan.Reading
import DiagramStream.Proofs.Sequence.Lines
import DiagramStream.Proofs.Sequence.Joining
import DiagramStream.Proofs.Dot.Canonical
import DiagramStream.Proofs.Dot.RoundTrip
import DiagramStream.Proofs.Detection
import DiagramStream.Proofs.Shape
import DiagramStream.Proofs.Sequence.Canonical
import DiagramStream.Proofs.Sequence.RoundTrip
import DiagramStream.Proofs.Service
import DiagramStream.Proofs.Event.RoundTrip
import DiagramStream.Proofs.Respelling
import DiagramStream.Proofs.Graph.InOrder
import DiagramStream.Proofs.Graph.Layout
import DiagramStream.Proofs.Graph.Attributes
import DiagramStream.Proofs.Graph.Fields
import DiagramStream.Proofs.Nesting.Stack
import DiagramStream.Proofs.Canvas.Announcements
import DiagramStream.Proofs.Roster.Conflicts
import DiagramStream.Proofs.Roster.Repetition
import DiagramStream.Proofs.Dot.Continuation
import DiagramStream.Proofs.Sequence.NoteBody
import DiagramStream.Proofs.Places
