import Montage.Document.Display
import Montage.Failure
import Montage.Text.Blank
import Montage.Text.LetterCase

/-!
Source media, and what is known of their streams.
-/

namespace Montage

/-- Whether a stream is there. -/
inductive Presence where
  | present
  | absent
  | unknown
  deriving DecidableEq

namespace Presence

def isKnown (p : Presence) : Bool := p != .unknown

/-- The presence that a word names, without regard to case and to white space around it. -/
def ofWord? (s : String) : Option Presence :=
  let word := String.ofList (Text.lower (Text.trim s.toList))
  if word == "true" || word == "yes" then some .present
  else if word == "false" || word == "no" then some .absent
  else if word == "unknown" || word == "null" || word == "" then some .unknown
  else none

def ofDocument : Document → Except Failure Presence
  | .null => .ok .unknown
  | .bool b => .ok (if b then .present else .absent)
  | d => do
    let s ← d.written
    match ofWord? s with
    | some p => return p
    | none => throw (.rejected (.presence s))

end Presence

/-- What is known of the streams of a media item. -/
structure MediaInfo where
  video : Presence := .unknown
  audio : Presence := .unknown
  deriving DecidableEq

structure Media where
  id : String
  name : String
  mimeType : String := ""
  duration : Number := 0
  width : Option Number := some 0
  height : Option Number := some 0
  offline : Bool := false
  deriving DecidableEq

/-- Whether a text begins with another. -/
def startsWith (start s : String) : Bool := start.toList.isPrefixOf s.toList

namespace Media

def isAudio (m : Media) : Bool := startsWith "audio/" m.mimeType

def isVideo (m : Media) : Bool := startsWith "video/" m.mimeType

/-- Whether a media item has a picture: as known, else unless its type is audio. -/
def hasVideo (m : Media) (info : MediaInfo) : Bool :=
  if info.video.isKnown then info.video == .present else !m.isAudio

/-- Whether a media item has sound: as known, else as its type suggests. -/
def hasAudio (m : Media) (info : MediaInfo) : Bool :=
  if info.audio.isKnown then info.audio == .present else m.isAudio || m.isVideo

/-- Whether the answer on sound is only suggested by the type. -/
def audioInferred (info : MediaInfo) : Bool := !info.audio.isKnown

end Media

/-- The media item with an id; with two of one id the later one. -/
def findMedia? (media : List Media) (id : String) : Option Media :=
  media.reverse.find? fun m => m.id == id

/-- What is known of the streams of the media item with an id. -/
def findInfo (infos : List (String × MediaInfo)) (id : String) : MediaInfo :=
  ((infos.find? fun e => e.1 == id).map (·.2)).getD {}

end Montage
