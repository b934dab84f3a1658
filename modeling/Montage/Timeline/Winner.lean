import Montage.Timeline.Media
import Montage.Timeline.Segment

/-!
The winners of the timeline.

At each instant the clip on the topmost track is heard, and the topmost clip with a picture to
show is seen; of clips on one track the first listed wins.  Winners change only where a clip
starts or ends, so it is enough to look at those times.
-/

namespace Montage

/-- A clip with the time at which it ends. -/
structure Placed where
  clip : Clip
  stop : Number

namespace Placed

def ofClip (c : Clip) : Except Fault Placed := do
  return ⟨c, ← c.stop⟩

/-- A clip plays from its start up to, not including, its end. -/
def playsAt (p : Placed) (t : Number) : Bool := p.clip.start.le t && t.lt p.stop

end Placed

/-- The times in ascending order with one more time, unless an equal one is there. -/
def insertTime (t : Number) : List Number → List Number
  | [] => [t]
  | s :: rest =>
    if s.eq t then s :: rest
    else if t.lt s then t :: s :: rest
    else s :: insertTime t rest

/-- Zero, and all times at which a clip starts or ends. -/
def boundaries (placed : List Placed) : List Number :=
  placed.foldl (fun times p => insertTime p.stop (insertTime p.clip.start times)) [0]

/-- The first listed clip of the topmost track. -/
def topmost? : List Clip → Option Clip
  | [] => none
  | c :: rest =>
    some (rest.foldl (fun best d => if d.track < best.track then d else best) c)

/-- The media of a timeline and what is known of their streams. -/
structure Sources where
  media : List Media := []
  infos : List (String × MediaInfo) := []

namespace Sources

/-- The media item of a clip. -/
def mediaOf? (s : Sources) (c : Clip) : Option Media := findMedia? s.media c.mediaId

/-- What is known of a media item. -/
def infoOf (s : Sources) (m : Media) : MediaInfo := findInfo s.infos m.id

/-- Whether a clip has a picture. -/
def hasPicture (s : Sources) (c : Clip) : Bool :=
  match s.mediaOf? c with
  | some m => m.hasVideo (s.infoOf m)
  | none => false

end Sources

/-- The clips that play at a time. -/
def activeAt (placed : List Placed) (t : Number) : List Clip :=
  (placed.filter (·.playsAt t)).map Placed.clip

/-- The clip heard at a time. -/
def audioWinner? (placed : List Placed) (t : Number) : Option Clip :=
  topmost? (activeAt placed t)

/-- The clip seen at a time. -/
def videoWinner? (sources : Sources) (placed : List Placed) (t : Number) : Option Clip :=
  topmost? ((activeAt placed t).filter fun c => c.visible && sources.hasPicture c)

/-- The segment between two boundaries, with the winners at its start. -/
def segmentAt (sources : Sources) (placed : List Placed) (start stop : Number) : Segment where
  start := start
  stop := stop
  video := (videoWinner? sources placed start).toList
  audio := (audioWinner? placed start).toList

/-- The segments between neighbouring boundaries. -/
def segmentsBetween (sources : Sources) (placed : List Placed) : List Number → List Segment
  | start :: stop :: rest =>
    let later := segmentsBetween sources placed (stop :: rest)
    if stop.le start then later else segmentAt sources placed start stop :: later
  | _ => []

/-- The segments between all boundaries of the placed clips. -/
def walk (sources : Sources) (placed : List Placed) : List Segment :=
  if placed.isEmpty then [] else segmentsBetween sources placed (boundaries placed)

/-- The segments after `current`, with neighbours of the same winners put together. -/
def collapseFrom (current : Segment) : List Segment → List Segment
  | [] => [current]
  | s :: rest =>
    if current.sameWinners s then collapseFrom { current with stop := s.stop } rest
    else current :: collapseFrom s rest

/-- The segments with neighbours of the same winners put together. -/
def collapse : List Segment → List Segment
  | [] => []
  | s :: rest => collapseFrom s rest

/-- The coarsest segments of a timeline with constant winners. -/
def resolve (sources : Sources) (clips : List Clip) : Except Fault (List Segment) := do
  return collapse (walk sources (← clips.mapM Placed.ofClip))

end Montage
