import Montage.Calendar.Day
import Montage.Calendar.Moment
import Montage.CommandLine.Exporter
import Montage.CommandLine.Options
import Montage.Dashboard.DebugLog
import Montage.Dashboard.Highlight
import Montage.Dashboard.Palette
import Montage.Dashboard.Session
import Montage.Dashboard.StyledText
import Montage.Dashboard.Wording
import Montage.Document.Basic
import Montage.Document.Display
import Montage.Export.Command
import Montage.Export.Compile
import Montage.Export.ConcatScript
import Montage.Export.Copy
import Montage.Export.Effect
import Montage.Export.Field
import Montage.Export.Graph
import Montage.Export.Parameters
import Montage.Export.Preset
import Montage.Export.Settings
import Montage.Export.Stage
import Montage.Export.Tempo
import Montage.Failure
import Montage.Fault
import Montage.Filter.Basic
import Montage.Filter.Effective
import Montage.Filter.Family
import Montage.Filter.Key
import Montage.Filter.Reading
import Montage.Main
import Montage.Number.Basic
import Montage.Number.Binary64
import Montage.Number.Fixed
import Montage.Number.Power
import Montage.Number.Reading
import Montage.Number.Shortest
import Montage.Project.Basic
import Montage.Project.Plan
import Montage.Proofs.Export.Arguments
import Montage.Proofs.Export.Compile
import Montage.Proofs.Export.Content
import Montage.Proofs.Export.Copy
import Montage.Proofs.Export.Delay
import Montage.Proofs.Export.Determined
import Montage.Proofs.Export.Drift
import Montage.Proofs.Export.Graph
import Montage.Proofs.Export.GraphReading
import Montage.Proofs.Export.GraphText
import Montage.Proofs.Export.Length
import Montage.Proofs.Export.Match
import Montage.Proofs.Export.Moderate
import Montage.Proofs.Export.Neutral
import Montage.Proofs.Export.Parts
import Montage.Proofs.Export.Plan
import Montage.Proofs.Export.Playback
import Montage.Proofs.Export.Preset
import Montage.Proofs.Export.PrintedTempo
import Montage.Proofs.Export.Rendering
import Montage.Proofs.Export.Script
import Montage.Proofs.Export.SourceWindow
import Montage.Proofs.Export.SplitExport
import Montage.Proofs.Export.SplitJoint
import Montage.Proofs.Export.SplitPlan
import Montage.Proofs.Export.Tempo
import Montage.Proofs.Export.Untouched
import Montage.Proofs.Export.Warning
import Montage.Proofs.Export.Writable
import Montage.Proofs.Fault
import Montage.Proofs.Filter.Agree
import Montage.Proofs.Number.AtMost
import Montage.Proofs.Number.Canonical
import Montage.Proofs.Number.Decimal
import Montage.Proofs.Number.Delay
import Montage.Proofs.Number.Doubling
import Montage.Proofs.Number.Exact
import Montage.Proofs.Number.Finite
import Montage.Proofs.Number.Fits
import Montage.Proofs.Number.Nearest
import Montage.Proofs.Number.Order
import Montage.Proofs.Number.Power
import Montage.Proofs.Number.Reading
import Montage.Proofs.Number.Rounding
import Montage.Proofs.Project.History
import Montage.Proofs.Project.Plan
import Montage.Proofs.Project.Total
import Montage.Proofs.Snapshot.Bounds
import Montage.Proofs.Snapshot.Filters
import Montage.Proofs.Snapshot.Identity
import Montage.Proofs.Snapshot.Layers
import Montage.Proofs.Snapshot.Moderate
import Montage.Proofs.Snapshot.Reading
import Montage.Proofs.Snapshot.Refusal
import Montage.Proofs.Text.Characters
import Montage.Proofs.Text.Parts
import Montage.Proofs.Text.Words
import Montage.Proofs.Timeline.Boundary
import Montage.Proofs.Timeline.Canonical
import Montage.Proofs.Timeline.ClipSplit
import Montage.Proofs.Timeline.Collapsing
import Montage.Proofs.Timeline.Delay
import Montage.Proofs.Timeline.Halving
import Montage.Proofs.Timeline.Instant
import Montage.Proofs.Timeline.Joint
import Montage.Proofs.Timeline.Pairwise
import Montage.Proofs.Timeline.Range
import Montage.Proofs.Timeline.Recall
import Montage.Proofs.Timeline.Remembered
import Montage.Proofs.Timeline.Renaming
import Montage.Proofs.Timeline.Run
import Montage.Proofs.Timeline.SharedMemo
import Montage.Proofs.Timeline.Slice
import Montage.Proofs.Timeline.Source
import Montage.Proofs.Timeline.Tiling
import Montage.Proofs.Timeline.Timecode
import Montage.Proofs.Timeline.Winner
import Montage.Rejection
import Montage.Snapshot.Basic
import Montage.Snapshot.Edit
import Montage.Snapshot.File
import Montage.Snapshot.Reading
import Montage.Text.Base64
import Montage.Text.Blank
import Montage.Text.CharClass
import Montage.Text.Digit
import Montage.Text.Hex
import Montage.Text.LetterCase
import Montage.Text.Lines
import Montage.Text.Printable
import Montage.Text.Quoted
import Montage.Text.Shell
import Montage.Text.WordChar
import Montage.Timeline.Clip
import Montage.Timeline.Join
import Montage.Timeline.Media
import Montage.Timeline.Range
import Montage.Timeline.Segment
import Montage.Timeline.Timecode
import Montage.Timeline.Window
import Montage.Timeline.Winner
import Montage.Yaml.Cursor
import Montage.Yaml.Date
import Montage.Yaml.Merge
import Montage.Yaml.Node
import Montage.Yaml.Reading
import Montage.Yaml.Scalar
import Montage.Yaml.Style
import Montage.Yaml.Token
import Montage.Yaml.Token.Block
import Montage.Yaml.Token.Plain
import Montage.Yaml.Token.Property
import Montage.Yaml.Token.Quoted
import Montage.Yaml.Token.Stream
import Montage.Yaml.Value
import Montage.Yaml.Writing
