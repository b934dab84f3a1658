import Montage.Export.ConcatScript
import Montage.Export.Graph
import Montage.Text.LetterCase

/-!
The command that carries out an export.
-/

namespace Montage

def leastWidth : Int := 1280

def leastHeight : Int := 720

/-- A number as a whole number; a missing or zero one gives the fallback. -/
def wholeOr (fallback : Int) (x : Option Number) : Except Fault Int :=
  match x with
  | none => .ok fallback
  | some v => if v.isZero then .ok fallback else v.truncate

/-- The frame enlarged to hold the media of a clip. -/
def growFrame (media : List Media) (frame : Int × Int) (c : Clip) : Except Fault (Int × Int) :=
  match findMedia? media c.mediaId with
  | none => .ok frame
  | some m => do
    let width := max frame.1 (← wholeOr 0 m.width)
    return (width, max frame.2 (← wholeOr 0 m.height))

/-- The frame of the output: the size that is set, else the least frame that holds the media of
every clip and is not below the least size. -/
def outputFrame (settings : ExportSettings) (clips : List Clip) (media : List Media) :
    Except Fault (Int × Int) :=
  match settings.resolution with
  | .size w h => do
    let width ← wholeOr leastWidth w
    return (width, ← wholeOr leastHeight h)
  | frame =>
    if frame.isAuto then clips.foldlM (growFrame media) (leastWidth, leastHeight)
    else .ok (leastWidth, leastHeight)

/-- Whether `part` occurs in a text. -/
def occursIn (part : List Char) : List Char → Bool
  | [] => part.isEmpty
  | c :: rest => part.isPrefixOf (c :: rest) || occursIn part rest

/-- Whether a text is in a value: a part of a text, an item of a list, or a key of a mapping. -/
def Document.holds (part : String) : Document → Except Fault Bool
  | .text s => .ok (occursIn part.toList s.toList)
  | .list items | .set items => .ok (items.any (·.agrees (.text part)))
  | .map entries => .ok (entries.any fun e => e.1.agrees (.text part))
  | d => .error (.searchedKind d.kind)

/-- Codecs whose quality is a rate factor. -/
def usesRateFactor (codec : Document) : Except Fault Bool := do
  let name := codec.orElse (.text "")
  if ← name.holds "264" then return true
  name.holds "265"

/-- The flags that a container format calls for. -/
def containerFlags (format : Document) : Except Fault (List String) :=
  match format.orElse (.text "") with
  | .text s =>
    let name := String.ofList (Text.lower s.toList)
    let begins := name == "mp4" || name == "mov" || name == "m4v"
    .ok (if begins then ["-movflags", "+faststart"] else [])
  | d => .error (.loweredKind d.kind)

/-- Words of a command; a value that comes from the settings stands as it is. -/
abbrev Words := List Document

namespace Words

def ofTexts (texts : List String) : Words := texts.map .text

/-- The texts of words, the first of which has a place in a larger list of words. -/
def texts (place : Nat) : Words → Except Fault (List String)
  | [] => .ok []
  | .text s :: rest => do return s :: (← texts (place + 1) rest)
  | d :: _ => .error (.joinedKind place d.kind)

/-- The words with a blank between any two; all of them must be texts. -/
def join (words : Words) : Except Fault String := do return " ".intercalate (← words.texts 0)

end Words

/-- A flag with a value, when the value is set. -/
def flagFor (flag : String) (value : Document) : Words :=
  if value.isVoid then [] else [.text flag, value]

namespace ExportSettings

/-- The rate factor, when it is not missing. -/
def rateFactor (s : ExportSettings) : Document :=
  match s.crf with
  | .null => .number 23
  | d => d

def videoFlags (s : ExportSettings) : Except Fault Words := do
  let quality : Words ←
    if !s.videoBitrate.isVoid then pure (flagFor "-b:v" s.videoBitrate)
    else do
      if ← usesRateFactor s.videoCodec then
        pure (.ofTexts ["-crf", ← s.rateFactor.parameter] ++ flagFor "-preset" s.preset)
      else pure []
  return flagFor "-c:v" s.videoCodec ++ quality ++ .ofTexts ["-r", ← s.frameRate.parameter]

def audioFlags (s : ExportSettings) : Except Fault Words := do
  return flagFor "-c:a" s.audioCodec ++ flagFor "-b:a" s.audioBitrate
    ++ .ofTexts ["-ar", ← s.soundRate.parameter]

/-- The name of the output as a word of the command. -/
def outputWord (s : ExportSettings) : Except Fault String :=
  match s.output with
  | .text name => .ok (String.ofList (Text.shellWord name.toList))
  | d => .error (.textExpected d.kind)

def outputFlags (s : ExportSettings) : Except Fault (List String) := do
  return (← containerFlags (s.format.orElse (.text "mp4"))) ++ ["-y", ← s.outputWord]

end ExportSettings

/-- A text in double quotes. -/
def doubleQuoted (s : String) : String := "\"" ++ s ++ "\""

/-- The name of an input in double quotes. -/
def inputWord (m : Media) : String :=
  doubleQuoted (String.ofList (Text.escapeDoubleQuotes m.name.toList))

/-- The command that renders a graph. -/
def renderCommand (settings : ExportSettings) (p : GraphPlan) : Except Fault String := do
  let inputs := p.inputs.flatMap fun m => ["-i", inputWord m]
  let graph ← p.render
  Words.join (.ofTexts (["ffmpeg"] ++ inputs
      ++ ["-filter_complex", doubleQuoted graph,
        "-map", doubleQuoted ("[" ++ videoOutput ++ "]"),
        "-map", doubleQuoted ("[" ++ audioOutput ++ "]")])
    ++ (← settings.videoFlags) ++ (← settings.audioFlags) ++ .ofTexts (← settings.outputFlags))

/-- The command that copies windows, reading its script from a pipe. -/
def copyCommand (settings : ExportSettings) (p : CopyPlan) : Except Fault String := do
  let payload := String.ofList (Text.closeSingleQuotes (← p.payload).toList)
  return " ".intercalate (["printf", "'%b'", "'" ++ payload ++ "'", "|", "ffmpeg", "-f", "concat",
    "-safe", "0", "-protocol_whitelist", "file,pipe,fd,crypto,data", "-i", "-", "-c", "copy"]
    ++ (← settings.outputFlags))

end Montage
