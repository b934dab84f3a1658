import Montage.Document.Display
import Montage.Timeline.Clip

/-!
Segments: half-open intervals of the timeline, each with the run of clips that it plays on each
channel.  The first clip of a run is the winner of the channel and fixes the source window.
-/

namespace Montage

inductive Channel where
  | video
  | audio
  deriving DecidableEq

structure Segment where
  start : Number
  stop : Number
  video : List Clip := []
  audio : List Clip := []

namespace Segment

def duration (s : Segment) : Except Fault Number := s.stop.sub s.start

def run (s : Segment) : Channel → List Clip
  | .video => s.video
  | .audio => s.audio

/-- The winner of a channel. -/
def winner? (s : Segment) (channel : Channel) : Option Clip := (s.run channel).head?

/-- The last clip of a run. -/
def tail? (s : Segment) (channel : Channel) : Option Clip := (s.run channel).getLast?

/-- Nothing is seen or heard. -/
def isEmpty (s : Segment) : Bool := s.video.isEmpty && s.audio.isEmpty

/-- Whether two segments have winners of the same ids. -/
def sameWinners (s t : Segment) : Bool :=
  (s.winner? .video).map Clip.id == (t.winner? .video).map Clip.id
    && (s.winner? .audio).map Clip.id == (t.winner? .audio).map Clip.id

/-- The id of the winner of a channel, as it is shown. -/
def winnerText (s : Segment) (channel : Channel) : String :=
  match s.winner? channel with
  | some c => Text.quoted c.id
  | none => Document.literal .null

/-- A segment shown with its winners. -/
def literal (s : Segment) : String :=
  "Segment(" ++ s.start.text ++ ", " ++ s.stop.text ++ ", video=" ++ s.winnerText .video
    ++ ", audio=" ++ s.winnerText .audio ++ ")"

end Segment

end Montage
