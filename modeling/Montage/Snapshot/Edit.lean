import Montage.Export.Preset
import Montage.Failure
import Montage.Snapshot.Basic

/-!
Edits of a snapshot.  What an edit does to clips or media with an id it does to all of them.
-/

namespace Montage

/-- The list with a change made wherever a test holds. -/
def changeWhere {α : Type} (test : α → Bool) (change : α → α) (items : List α) : List α :=
  items.map fun x => if test x then change x else x

/-- The place in a list of a length that an index means; a negative one counts from the end. -/
def placeAt (length : Nat) (index : Int) : Nat :=
  if index < 0 then (length + index).toNat else index.toNat

namespace Snapshot

def changeClip (id : String) (change : Clip → Clip) (s : Snapshot) : Snapshot :=
  { s with clips := changeWhere (·.id == id) change s.clips }

/-- Adds a clip before the one at an index, or at the end. -/
def addClip (c : Clip) (index : Option Int) (s : Snapshot) : Snapshot :=
  let n := match index with
    | some i => placeAt s.clips.length i
    | none => s.clips.length
  { s with clips := s.clips.take n ++ c :: s.clips.drop n }

def removeClip (id : String) (s : Snapshot) : Snapshot :=
  { s with clips := s.clips.filter (·.id != id) }

def addMedia (m : Media) (s : Snapshot) : Snapshot := { s with media := s.media ++ [m] }

def changeMedia (id : String) (change : Media → Media) (s : Snapshot) : Snapshot :=
  { s with media := changeWhere (·.id == id) change s.media }

/-- Sets what is known of the streams of a media item. -/
def setInfo (id : String) (info : MediaInfo) (s : Snapshot) : Snapshot :=
  { s with infos :=
      if s.infos.any (·.1 == id) then changeWhere (·.1 == id) (fun e => (e.1, info)) s.infos
      else s.infos ++ [(id, info)] }

def changeSettings (change : ExportSettings → ExportSettings) (s : Snapshot) : Snapshot :=
  { s with settings := change s.settings }

def changeDefaults (change : Defaults → Defaults) (s : Snapshot) : Snapshot :=
  { s with defaults := change s.defaults }

/-- Puts a preset over the settings. -/
def usePreset (id : String) (s : Snapshot) : Except Failure Snapshot :=
  match Preset.find? id with
  | some p => .ok (s.changeSettings p.apply)
  | none => .error (.unknownPreset id)

end Snapshot

end Montage
