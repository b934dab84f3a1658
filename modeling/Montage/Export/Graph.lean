import Montage.Export.Settings
import Montage.Export.Tempo
import Montage.Timeline.Window
import Montage.Timeline.Winner

/-!
Filter graphs.

Every kept segment gives a video chain and an audio chain, and one last chain puts them in a row.
A segment is kept when it has a length and every winner has media at hand; the media used are the
inputs, in the order in which they are first needed.
-/

namespace Montage

structure GraphPlan where
  inputs : List Media
  chains : List Chain
  warning : Bool

namespace GraphPlan

def render (p : GraphPlan) : Except Fault String := Chain.renderGraph p.chains

end GraphPlan

def videoOutput : String := "outv"

def audioOutput : String := "outa"

/-- All that a graph is made from, the segments apart. -/
structure GraphContext where
  sources : Sources
  settings : ExportSettings
  rule : FilterRule
  width : Int
  height : Int

namespace GraphContext

/-- The media item of a clip, when it is at hand. -/
def mediaFor? (g : GraphContext) (c : Clip) : Option Media :=
  (g.sources.mediaOf? c).filter fun m => !m.offline

/-- The winners of a segment, the one seen first. -/
def winners (s : Segment) : List Clip :=
  (s.winner? .video).toList ++ (s.winner? .audio).toList

/-- Every winner has media at hand. -/
def available (g : GraphContext) (s : Segment) : Bool :=
  (winners s).all fun c => (g.mediaFor? c).isSome

def keeps (g : GraphContext) (s : Segment) : Except Fault Bool := do
  return !(← s.duration).le 0 && g.available s

/-- The inputs with the media of more clips, each once. -/
def addInputs (g : GraphContext) (inputs : List Media) (clips : List Clip) : List Media :=
  clips.foldl (fun inputs c =>
    match g.mediaFor? c with
    | some m => if inputs.any (·.id == m.id) then inputs else inputs ++ [m]
    | none => inputs) inputs

/-- The inputs of a list of segments. -/
def inputs (g : GraphContext) (segments : List Segment) : Except Fault (List Media) :=
  segments.foldlM (fun inputs s => do
    return if ← g.keeps s then g.addInputs inputs (winners s) else inputs) []

/-- The label of a stream of an input. -/
def sourcePad (inputs : List Media) (m : Media) (stream : String) : String :=
  toString (inputs.findIdx (·.id == m.id)) ++ ":" ++ stream

/-- A black picture. -/
def black (g : GraphContext) (duration : Number) (label : String) : Chain where
  inputs := []
  stages := [.color (.int g.width) (.int g.height) g.settings.frameRate duration "black",
    .pixelFormat "yuv420p", .setSar]
  outputs := [label]

def silence (g : GraphContext) (duration : Number) (label : String) : Chain where
  inputs := []
  stages := [.nullSource g.settings.soundRate duration "stereo"]
  outputs := [label]

/-- The picture of a clip in a segment. -/
def picture (g : GraphContext) (inputs : List Media) (s : Segment) (c : Clip) (m : Media)
    (label : String) : Except Fault Chain := do
  let duration ← s.duration
  let window ← Window.ofSlice c s.start duration
  let cut := [Stage.trim (← window.start.seconds) (← window.stop.seconds),
    .setPts Stage.fromZero]
  let turned := if c.reversed then [Stage.reverse, .setPts Stage.fromZero] else []
  let speed ← stageIf (!window.speed.eq 1) (Stage.atSpeed window.speed)
  let effects ← videoEffects (g.rule c).video duration
  let fitted := [Stage.scale (.int g.width) (.int g.height), .pad (.int g.width) (.int g.height),
    .setSar, .pixelFormat "yuv420p"]
  return ⟨[sourcePad inputs m "v"], cut ++ turned ++ speed ++ effects ++ fitted, [label]⟩

def videoChain (g : GraphContext) (inputs : List Media) (s : Segment) (label : String) :
    Except Fault Chain := do
  match (s.winner? .video).bind fun c => (g.mediaFor? c).map fun m => (c, m) with
  | none => return g.black (← s.duration) label
  | some (c, m) =>
    if m.hasVideo (g.sources.infoOf m) then g.picture inputs s c m label
    else return g.black (← s.duration) label

/-- The sound of a clip in a segment.  A muted clip keeps its place with volume zero. -/
def sound (g : GraphContext) (inputs : List Media) (s : Segment) (c : Clip) (m : Media)
    (label : String) : Except Fault Chain := do
  let duration ← s.duration
  let window ← Window.ofSlice c s.start duration
  let cut := [Stage.audioTrim (← window.start.seconds) (← window.stop.seconds),
    .audioSetPts Stage.fromZero]
  let turned := if c.reversed then [Stage.audioReverse, .audioSetPts Stage.fromZero] else []
  let filters := g.rule c
  let tempo ← tempoStages (some window.speed) (some (filters.audio.amount .pitch))
    g.settings.soundRate
  let effects ← audioEffects filters.audio duration
  let volume := if c.muted then .number 0 else filters.volume
  let level := if volume.agrees (.number 1) then [] else [Stage.volume volume]
  let clicks ← if g.settings.fadesClicks then clickFades duration else pure []
  let stages := cut ++ turned ++ tempo ++ effects ++ level ++ clicks
  return ⟨[sourcePad inputs m "a"], stages, [label]⟩

def audioChain (g : GraphContext) (inputs : List Media) (s : Segment) (label : String) :
    Except Fault Chain := do
  match (s.winner? .audio).bind fun c => (g.mediaFor? c).map fun m => (c, m) with
  | none => return g.silence (← s.duration) label
  | some (c, m) =>
    if m.hasAudio (g.sources.infoOf m) then g.sound inputs s c m label
    else return g.silence (← s.duration) label

/-- Whether the sound of a segment is only suggested by the type of its media. -/
def audioGuessed (g : GraphContext) (s : Segment) : Bool :=
  match (s.winner? .audio).bind g.mediaFor? with
  | some m => Media.audioInferred (g.sources.infoOf m)
  | none => false

/-- The chains of the kept segments, with their place in the list. -/
def segmentChains (g : GraphContext) (inputs : List Media) :
    Nat → List Segment → Except Fault (List (Nat × Segment × Chain × Chain))
  | _, [] => .ok []
  | i, s :: rest => do
    if ← g.keeps s then
      let video ← g.videoChain inputs s s!"v{i}"
      let audio ← g.audioChain inputs s s!"a{i}"
      return (i, s, video, audio) :: (← segmentChains g inputs (i + 1) rest)
    else segmentChains g inputs (i + 1) rest

/-- The chain that puts the kept segments in a row. -/
def lastChain (places : List Nat) : Chain where
  inputs := places.flatMap fun i => [s!"v{i}", s!"a{i}"]
  stages := [.concat (.int places.length) 1 1]
  outputs := [videoOutput, audioOutput]

/-- The graph of a list of segments; none when no segment with a winner is kept. -/
def plan (g : GraphContext) (segments : List Segment) : Except Fault (Option GraphPlan) := do
  let inputs ← g.inputs segments
  if inputs.isEmpty then return none
  let kept ← g.segmentChains inputs 0 segments
  if kept.isEmpty then return none
  return some
    { inputs := inputs
      chains := kept.flatMap (fun k => [k.2.2.1, k.2.2.2]) ++ [lastChain (kept.map (·.1))]
      warning := kept.any fun k => g.audioGuessed k.2.1 }

end GraphContext

end Montage
