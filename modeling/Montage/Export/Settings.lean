import Montage.Document.Display

/-!
Export settings.

Most fields hold any value, as they may come straight from a document; a missing or empty value
counts as not set where the command is written.
-/

namespace Montage

/-- The frame of the output: a size, or a word for one. -/
inductive Frame where
  | size (width height : Option Number)
  | named (value : Document)

structure ExportSettings where
  resolution : Frame := .named (.text "auto")
  fps : Document := .number 30
  videoCodec : Document := .text "libx264"
  videoBitrate : Document := .text ""
  crf : Document := .number 23
  preset : Document := .text "medium"
  audioCodec : Document := .text "aac"
  audioBitrate : Document := .text "192k"
  sampleRate : Document := .number 44100
  format : Document := .text "mp4"
  rangeStart : Document := .number 0
  rangeEnd : Document := .null
  deClick : Document := .bool true
  allowLosslessCopy : Document := .bool true
  outputFile : Document := .null

namespace Document

/-- The value unless it counts as absent, else another. -/
def orElse (d other : Document) : Document := if d.isVoid then other else d

end Document

namespace Frame

def numberText : Option Number → String
  | some x => x.text
  | none => Document.literal .null

/-- A size shown with its parts. -/
def literal : Frame → String
  | size width height =>
    "Resolution(" ++ numberText width ++ ", " ++ numberText height ++ ")"
  | named d => d.literal

def sameNumber : Option Number → Option Number → Bool
  | none, none => true
  | some x, some y => x.eq y
  | _, _ => false

def agrees : Frame → Frame → Bool
  | size w h, size w' h' => sameNumber w w' && sameNumber h h'
  | named d, named d' => d.agrees d'
  | _, _ => false

def isAuto (f : Frame) : Bool := f.agrees (.named (.text "auto"))

end Frame

namespace ExportSettings

/-- Whether short fades keep the joints of sound from clicking. -/
def fadesClicks (s : ExportSettings) : Bool := !s.deClick.isVoid

/-- Whether the media may be copied without rendering, were that enough. -/
def mayCopy (s : ExportSettings) : Bool := !s.allowLosslessCopy.isVoid && !s.fadesClicks

/-- The container format. -/
def container (s : ExportSettings) : String := (s.format.orElse (.text "mp4")).display

/-- The output: as set, else named after the format. -/
def output (s : ExportSettings) : Document := s.outputFile.orElse (.text ("output." ++ s.container))

/-- The output, when the format that it may be named after can be written. -/
def writtenOutput (s : ExportSettings) : Except Fault Document :=
  if s.outputFile.isVoid && (s.format.orElse (.text "mp4")).isTooLong then .error .digitsWritten
  else .ok s.output

/-- The name of the output. -/
def outputName (s : ExportSettings) : String := s.output.display

/-- The frame rate of generated pictures. -/
def frameRate (s : ExportSettings) : Document := s.fps.orElse (.number 30)

/-- The sample rate of generated sound. -/
def soundRate (s : ExportSettings) : Document := s.sampleRate.orElse (.number 44100)

end ExportSettings

end Montage
