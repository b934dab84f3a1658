import Montage.Export.Preset
import Montage.Failure
import Montage.Snapshot.Basic

/-!
Reading a snapshot from a document.

Ids are texts, whatever the document holds, and are unique among media and among clips.  Times,
speeds and switches are checked; a part left out takes its usual value.
-/

namespace Montage

/-- The entries of a mapping. -/
abbrev Entries := List (Document × Document)

namespace Reading

def number (label : String) : Document → Except Rejection Number
  | .number x => .ok x
  | _ => .error (.notNumber label)

def switch (label : String) : Document → Except Rejection Bool
  | .bool b => .ok b
  | _ => .error (.notSwitch label)

/-- A text; a number counts as its text and null as empty. -/
def text (label : String) : Document → Except Failure String
  | .null => .ok ""
  | .text s => .ok s
  | .number x => (Document.number x).written
  | _ => .error (.rejected (.notText label))

def whole (label : String) : Document → Except Rejection Int
  | .number (.int n) => .ok n
  | _ => .error (.notWhole label)

def list (label : String) (d : Document) : Except Rejection (List Document) :=
  match d.face with
  | .null => .ok []
  | .list items => .ok items
  | _ => .error (.notList label)

/-- The entries of a mapping; null is an empty one. -/
def mapping (label : String) (d : Document) : Except Rejection Entries :=
  match d.face with
  | .null => .ok []
  | .map entries => .ok entries
  | _ => .error (.notMapping label)

/-- The value of a key, or another when the key is absent. -/
def part (entries : Entries) (key : String) (absent : Document) : Document :=
  (Document.get? entries key).getD absent

/-- A number cut to a whole one. -/
def size (label : String) (d : Document) : Except Failure Int := do
  let x ← number label d
  x.truncate

/-- Reads a list item by item, each with its place. -/
def items {α : Type} (read : Nat → Document → List α → Except Failure α) :
    Nat → List α → List Document → Except Failure (List α)
  | _, before, [] => .ok before
  | i, before, d :: rest => do
    let item ← read i d before
    items read (i + 1) (before ++ [item]) rest

def media (label : String) (seen : List String) (entries : Entries) :
    Except Failure (Media × MediaInfo) := do
  let id := Document.get entries "id"
  let name := Document.get entries "name"
  if id.isNull || name.isVoid then
    throw (.rejected (.missingParts label "id and name"))
  let id ← id.written
  if seen.contains id then throw (.rejected (.duplicate "media" id))
  let name ← name.written
  let mimeType ← text s!"{label}.type" (Document.get entries "type")
  let duration ← number s!"{label}.duration" (part entries "duration" (.number 0))
  let width ← size s!"{label}.width" (part entries "width" (.number 0))
  let height ← size s!"{label}.height" (part entries "height" (.number 0))
  let offline ← switch s!"{label}.offline" (part entries "offline" (.bool false))
  let video ← Presence.ofDocument (Document.get entries "has_video")
  let audio ← Presence.ofDocument (Document.get entries "has_audio")
  return ({ id := id, name := name, mimeType := mimeType, duration := duration
            width := some (.int width), height := some (.int height), offline := offline },
    ⟨video, audio⟩)

def mediaItem (i : Nat) (d : Document) (before : List (Media × MediaInfo)) :
    Except Failure (Media × MediaInfo) :=
  match d.face with
  | .map entries => media s!"media[{i}]" (before.map (·.1.id)) entries
  | _ => .error (.rejected (.notMapping s!"media[{i}]"))

def track (label : String) (entries : Entries) : Except Failure Track := do
  let id ← whole s!"{label}.id" (Document.get entries "id")
  let name ← text s!"{label}.name" (Document.get entries "name")
  let muted ← switch s!"{label}.muted" (part entries "muted" (.bool false))
  let locked ← switch s!"{label}.locked" (part entries "locked" (.bool false))
  let visible ← switch s!"{label}.visible" (part entries "visible" (.bool true))
  return { id := id, name := name, muted := muted, locked := locked, visible := visible }

def trackItem (i : Nat) (d : Document) (_ : List Track) : Except Failure Track :=
  match d.face with
  | .map entries => track s!"tracks[{i}]" entries
  | _ => .error (.rejected (.notMapping s!"tracks[{i}]"))

def slowest : Number := .float (Binary64.ofRatio false unitsInOne 4)

def fastest : Number := .float (Binary64.ofInt 4)

/-- A number that is not below zero. -/
def notNegative (label : String) (d : Document) : Except Rejection Number := do
  let x ← number label d
  if x.lt 0 then throw (.negative label)
  return x

def volume (label : String) : Document → Except Rejection (Option Number)
  | .null => .ok none
  | d => do return some (← number label d)

def clip (label : String) (entries : Entries) : Except Failure Clip := do
  let id := Document.get entries "id"
  let mediaId := Document.get entries "media"
  if id.isNull || mediaId.isNull then
    throw (.rejected (.missingParts label "id and media"))
  let track ← whole s!"{label}.track" (part entries "track" (.number 0))
  let start ← notNegative s!"{label}.start" (part entries "start" (.number 0))
  let duration ← number s!"{label}.duration" (Document.get entries "duration")
  if duration.le 0 then throw (.rejected (.notPositive s!"{label}.duration"))
  let trimStart ← notNegative s!"{label}.trim_start" (part entries "trim_start" (.number 0))
  let speed ← number s!"{label}.speed" (part entries "speed" (.number 1))
  if speed.lt slowest || fastest.lt speed then
    throw (.rejected (.speedRange s!"{label}.speed"))
  let volume ← volume s!"{label}.volume" (Document.get entries "volume")
  let id ← id.written
  let mediaId ← mediaId.written
  let reversed ← switch s!"{label}.reversed" (part entries "reversed" (.bool false))
  let muted ← switch s!"{label}.muted" (part entries "muted" (.bool false))
  let visible ← switch s!"{label}.visible" (part entries "visible" (.bool true))
  let videoFilters ← FilterSet.ofDocument s!"{label}.video_filters" .empty
    (Document.get entries "video_filters")
  let audioFilters ← FilterSet.ofDocument s!"{label}.audio_filters" .empty
    (Document.get entries "audio_filters")
  let name ← text s!"{label}.name" (Document.get entries "name")
  let trimEnd ← number s!"{label}.trim_end" (part entries "trim_end" (.number 0))
  return {
    id := id, mediaId := mediaId, track := track, start := start
    duration := duration, trimStart := some trimStart, trimEnd := trimEnd, speed := some speed
    reversed := reversed, muted := muted, visible := visible, volume := volume
    videoFilters := videoFilters, audioFilters := audioFilters, name := name
    color := Document.get entries "color" }

/-- A clip with an id of its own, on a declared track if any is declared. -/
def clipItem (tracks : List Track) (i : Nat) (d : Document) (before : List Clip) :
    Except Failure Clip :=
  match d.face with
  | .map entries => do
    let c ← clip s!"clips[{i}]" entries
    if before.any (·.id == c.id) then throw (.rejected (.duplicate "clip" c.id))
    if !tracks.isEmpty && !tracks.any (·.id == c.track) then
      let _ ← (Document.number (.int c.track)).written
      throw (.rejected (.unknownTrack c.id c.track))
    return c
  | _ => .error (.rejected (.notMapping s!"clips[{i}]"))

def defaults (d : Document) : Except Failure Defaults := do
  let entries ← mapping "defaults" d
  let video ← FilterSet.ofDocument "defaults.video" .neutral (Document.get entries "video")
  let audio ← FilterSet.ofDocument "defaults.audio" .neutral (Document.get entries "audio")
  return ⟨video, audio⟩

def exportKeys : List String :=
  ["preset", "resolution", "fps", "video_codec", "video_bitrate", "crf", "encoder_preset",
    "audio_codec", "audio_bitrate", "sample_rate", "format", "range_start", "range_end",
    "de_click", "allow_lossless_copy", "output_file"]

/-- Every key is one of the known ones. -/
def checkExportKeys : Entries → Except Failure Unit
  | [] => .ok ()
  | (key, _) :: rest =>
    if exportKeys.any fun k => key.agrees (.text k) then checkExportKeys rest
    else do throw (.rejected (.unknownExportKey (← key.written)))

/-- The preset that a value names. -/
def presetNamed (d : Document) : Except Failure Preset :=
  match d with
  | .text id =>
    match Preset.find? id with
    | some p => .ok p
    | none => .error (.rejected (.unknownPreset id))
  | d =>
    if d.isKey then do throw (.rejected (.unknownPreset (← d.written)))
    else .error (.fault (.lookupKind d.kind))

def frame (d : Document) : Except Failure Frame :=
  match d.face with
  | .null => .ok (.named (.text "auto"))
  | .list [w, h] => do
    let width ← size "export.resolution width" w
    let height ← size "export.resolution height" h
    if width ≤ 0 ∨ height ≤ 0 then throw (.rejected .resolutionSign)
    return .size (some (.int width)) (some (.int height))
  | d =>
    if d.agrees (.text "auto") then .ok (.named (.text "auto"))
    else .error (.rejected .resolutionShape)

/-- The settings with one of them read from its key, when the key is there. -/
def override {α : Type} (entries : Entries) (key : String)
    (read : String → Document → Except Failure α)
    (change : α → ExportSettings → ExportSettings)
    (s : ExportSettings) : Except Failure ExportSettings :=
  match Document.get? entries key with
  | none => .ok s
  | some d => do
    let value ← read ("export." ++ key) d
    return change value s

def overrideFrame (entries : Entries) (s : ExportSettings) : Except Failure ExportSettings :=
  match Document.get? entries "resolution" with
  | none => .ok s
  | some d => do return { s with resolution := ← frame d }

/-- The settings with the end of the range in place, unless it is null. -/
def overrideEnd (entries : Entries) (s : ExportSettings) : Except Failure ExportSettings :=
  match Document.get entries "range_end" with
  | .null => .ok s
  | d => do
    let x ← number "export.range_end" d
    return { s with rangeEnd := .number x }

/-- The settings with those in the entries of an export mapping in place. -/
def overrides (entries : Entries) (s : ExportSettings) : Except Failure ExportSettings := do
  let s ← overrideFrame entries s
  let s ← override entries "fps" (number · ·) (fun x s => { s with fps := .number x }) s
  let s ← override entries "crf" (number · ·) (fun x s => { s with crf := .number x }) s
  let s ← override entries "sample_rate" (number · ·)
    (fun x s => { s with sampleRate := .number x }) s
  let s ← override entries "range_start" (number · ·)
    (fun x s => { s with rangeStart := .number x }) s
  let s ← overrideEnd entries s
  let s ← override entries "video_codec" text (fun t s => { s with videoCodec := .text t }) s
  let s ← override entries "video_bitrate" text (fun t s => { s with videoBitrate := .text t }) s
  let s ← override entries "audio_codec" text (fun t s => { s with audioCodec := .text t }) s
  let s ← override entries "audio_bitrate" text (fun t s => { s with audioBitrate := .text t }) s
  let s ← override entries "format" text (fun t s => { s with format := .text t }) s
  let s ← override entries "output_file" text (fun t s => { s with outputFile := .text t }) s
  let s ← override entries "encoder_preset" text (fun t s => { s with preset := .text t }) s
  let s ← override entries "de_click" (switch · ·) (fun b s => { s with deClick := .bool b }) s
  override entries "allow_lossless_copy" (switch · ·)
    (fun b s => { s with allowLosslessCopy := .bool b }) s

/-- The settings of a preset, or the usual ones where none is chosen. -/
def presetSettings (chosen : Document) : Except Failure ExportSettings :=
  if chosen.isVoid then .ok {} else do return (← presetNamed chosen).apply {}

/-- The settings of an export mapping, over a preset; a preset and an output given from outside
win over those of the mapping. -/
def settings (output preset : Option String) (d : Document) : Except Failure ExportSettings := do
  let entries ← mapping "export" d
  checkExportKeys entries
  let chosen := match preset.filter (!·.isEmpty) with
    | some id => Document.text id
    | none => Document.get entries "preset"
  let s ← overrides entries (← presetSettings chosen)
  match output.filter (!·.isEmpty) with
  | some name => return { s with outputFile := .text name }
  | none => return s

end Reading

namespace Snapshot

/-- The size in bytes beyond which a file is not read. -/
def sizeLimit : Nat := 10000000

/-- The snapshot in a document, with a preset and an output given from outside. -/
def ofDocument (output preset : Option String) (d : Document) : Except Failure Snapshot :=
  match d.face with
  | .map entries => do
    if !(Document.get entries "stackcut").agrees (.number 1) then
      throw (.rejected .wrongVersion)
    if (Document.get? entries "media").isNone then throw (.rejected (.missingKey "media"))
    if (Document.get? entries "clips").isNone then throw (.rejected (.missingKey "clips"))
    let mediaItems ← Reading.list "media" (Document.get entries "media")
    let media ← Reading.items Reading.mediaItem 0 [] mediaItems
    let trackItems ← Reading.list "tracks" (Document.get entries "tracks")
    let tracks ← Reading.items Reading.trackItem 0 [] trackItems
    let clipItems ← Reading.list "clips" (Document.get entries "clips")
    let clips ← Reading.items (Reading.clipItem tracks) 0 [] clipItems
    let defaults ← Reading.defaults (Document.get entries "defaults")
    let settings ← Reading.settings output preset (Document.get entries "export")
    return {
      clips := clips, tracks := tracks, media := media.map (·.1)
      infos := media.map fun m => (m.1.id, m.2)
      settings := settings, defaults := defaults }
  | _ => .error (.rejected .notTopMapping)

end Snapshot

end Montage
