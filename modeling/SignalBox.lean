import SignalBox.Bus.Encoding
import SignalBox.Bus.Frame
import SignalBox.Bus.Line
import SignalBox.Command
import SignalBox.Command.Point
import SignalBox.Command.Route
import SignalBox.Command.Signal
import SignalBox.Command.Turntable
import SignalBox.Config
import SignalBox.Console.Grammar
import SignalBox.Console.Interpreter
import SignalBox.Console.Key
import SignalBox.Dispatch.Activity
import SignalBox.Dispatch.Delivery
import SignalBox.Dispatch.Execute
import SignalBox.Dispatch.Failure
import SignalBox.Dispatch.Positions
import SignalBox.Dispatch.Yard
import SignalBox.Document.Command
import SignalBox.Document.Config
import SignalBox.Document.Key
import SignalBox.Document.Layout
import SignalBox.Document.Notice
import SignalBox.Json
import SignalBox.Json.Document
import SignalBox.Json.DoublePrecision
import SignalBox.Json.Reader
import SignalBox.Json.Writer
import SignalBox.Layout.Coordinate
import SignalBox.Layout.Definition
import SignalBox.Layout.LayoutIndex
import SignalBox.Layout.Resolution
import SignalBox.Layout.TrackGraph
import SignalBox.Layout.Violation
import SignalBox.Main
import SignalBox.Notice
import SignalBox.Notice.Channel
import SignalBox.OrderedSet
import SignalBox.Outcome
import SignalBox.Position
import SignalBox.Program
import SignalBox.Reservations
import SignalBox.Session
import SignalBox.Session.Schedule
import SignalBox.Session.Task
import SignalBox.Text.Blank
import SignalBox.Text.Decimal
import SignalBox.Text.Line
import SignalBox.Text.Quoted
import SignalBox.Text.Truncated
import SignalBox.Text.Unprintable
import SignalBox.Proofs.Beginnings
import SignalBox.Proofs.Traffic
import SignalBox.Proofs.ActiveRoutes
import SignalBox.Proofs.Interlocking
import SignalBox.Proofs.Results
import SignalBox.Proofs.Tenure
import SignalBox.Proofs.Frames
import SignalBox.Proofs.Sequence
import SignalBox.Proofs.Effects
import SignalBox.Proofs.SentFrames
import SignalBox.Proofs.PositionRecord
import SignalBox.Proofs.EngagedLocks
import SignalBox.Proofs.Transmission
import SignalBox.Proofs.Course
import SignalBox.Proofs.OpposedPoints
import SignalBox.Proofs.LateUnlocking
import SignalBox.Proofs.Withdrawal
import SignalBox.Proofs.Prefixes
import SignalBox.Proofs.EntryReadings
import SignalBox.Proofs.KeyPresses
import SignalBox.Proofs.KeySequences
import SignalBox.Proofs.IndexedLayouts
import SignalBox.Proofs.UnreadableNumbers
import SignalBox.Proofs.HeldLocks
import SignalBox.Proofs.HeldPositions
import SignalBox.Proofs.Announcements
import SignalBox.Proofs.FrameEncoding
import SignalBox.Proofs.ReleaseEncoding
import SignalBox.Proofs.TypedText
import SignalBox.Proofs.WrittenJson
import SignalBox.Proofs.FaithfulDocuments
import SignalBox.Proofs.ConsoleCommands
import SignalBox.Proofs.Reloads
import SignalBox.Proofs.Disturbances
import SignalBox.Proofs.RouteCalls
import SignalBox.Proofs.PerformedCalls
import SignalBox.Proofs.FailedRequests
import SignalBox.Proofs.IndependentRoutes
import SignalBox.Proofs.StoppedSignals
import SignalBox.Proofs.FailedReleases
import SignalBox.Proofs.PointCalls
import SignalBox.Proofs.ExactReleases
import SignalBox.Proofs.Admission
import SignalBox.Proofs.ContradictoryRoutes
import SignalBox.Proofs.CommandHistory
import SignalBox.Proofs.ResolvedPoints
import SignalBox.Proofs.WholePoints
import SignalBox.Proofs.ExpandedRoutes
import SignalBox.Proofs.ClearedRoutes
import SignalBox.Proofs.EntryStates
import SignalBox.Proofs.TruncatedEntries
import SignalBox.Proofs.FlankMarks
import SignalBox.Proofs.LayoutWarnings
import SignalBox.Proofs.RouteConflicts
import SignalBox.Proofs.ReceivedFrames
import SignalBox.Proofs.CanonicalGraphs
import SignalBox.Proofs.Checksums
import SignalBox.Proofs.SignedNumerals
import SignalBox.Proofs.TurntableText
import SignalBox.Proofs.CoordinateText
