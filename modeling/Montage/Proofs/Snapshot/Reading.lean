import Montage.Proofs.Snapshot.Moderate
import Montage.Snapshot.Reading

/-!
Snapshots that are read from documents are well formed.
-/

namespace Montage

namespace Document

/-- The items of a list, none for any other value. -/
def listed (d : Document) : List Document :=
  match d.face with
  | .list items => items
  | _ => []

/-- The entries of a mapping, none for any other value. -/
def keyed (d : Document) : List (Document × Document) :=
  match d.face with
  | .map entries => entries
  | _ => []

theorem keyed_of_face {d : Document} {entries : List (Document × Document)}
    (h : d.face = .map entries) : d.keyed = entries := by
  rw [keyed, h]

/-- Only a text is the same as a text. -/
theorem agrees_text_iff {d : Document} {t : String} :
    d.agrees (.text t) = true ↔ d = .text t := by
  cases d with
  | text s => simp [agrees]
  | _ => simp [agrees, number?]

/-- A value is written as it is shown. -/
theorem display_of_written {d : Document} {text : String} (h : d.written = .ok text) :
    d.display = text := by
  rw [written] at h
  split at h
  · simp only [reduceCtorEq] at h
  · exact Except.ok.inj h

end Document

namespace Preset

/-- The preset with a value for its id. -/
def named? : Document → Option Preset
  | .text id => find? id
  | _ => none

theorem mem_of_named? {d : Document} {p : Preset} (h : named? d = some p) : p ∈ all := by
  cases d with
  | text id =>
      rw [named?, find?] at h
      exact List.mem_of_find?_eq_some h
  | _ => exact nomatch h

end Preset

section Steps

variable {α β : Type} {a : α} {b : β}

/-- A lifted step gives just the values of the step. -/
theorem liftRejection_eq_ok {x : Except Rejection α} :
    (liftM x : Except Failure α) = .ok a ↔ x = .ok a := by
  rcases x with f | b
  · exact ⟨nofun, nofun⟩
  · exact ⟨fun h => congrArg _ (Except.ok.inj h), fun h => congrArg _ (Except.ok.inj h)⟩

theorem liftFault_eq_ok {x : Except Fault α} :
    (liftM x : Except Failure α) = .ok a ↔ x = .ok a := by
  rcases x with f | b
  · exact ⟨nofun, nofun⟩
  · exact ⟨fun h => congrArg _ (Except.ok.inj h), fun h => congrArg _ (Except.ok.inj h)⟩

theorem exists_of_mem_forall₂ {R : α → β → Prop} {l : List α} {m : List β}
    (h : List.Forall₂ R l m) (hb : b ∈ m) : ∃ a ∈ l, R a b := by
  induction h with
  | nil => exact absurd hb List.not_mem_nil
  | cons hhead _ ih =>
      rcases List.mem_cons.1 hb with rfl | hrest
      · exact ⟨_, List.mem_cons_self, hhead⟩
      · obtain ⟨a, ha, hrel⟩ := ih hrest
        exact ⟨a, List.mem_cons_of_mem _ ha, hrel⟩

/-- What follows a check is reached only where the check does not refuse. -/
theorem unless_throw_eq_ok {ε : Type} {c : Prop} [Decidable c] {e : ε}
    {f : α → Except ε β} {x : Except ε β} :
    (if c then throw e >>= f else x) = .ok b ↔ ¬c ∧ x = .ok b := by
  by_cases hc : c
  · rw [if_pos hc]
    exact ⟨nofun, fun h => absurd hc h.1⟩
  · rw [if_neg hc]
    exact ⟨fun h => ⟨hc, h⟩, fun h => h.2⟩

end Steps

namespace Reading

/-- What every item keeps is there once all items are read. -/
theorem items_spec {α : Type} {read : Nat → Document → List α → Except Failure α}
    {P : List α → Prop} {i : Nat} {before all : List α} {ds : List Document}
    (hstep : ∀ i d before a, P before → read i d before = .ok a → P (before ++ [a]))
    (hbefore : P before) (h : items read i before ds = .ok all) : P all := by
  induction ds generalizing i before with
  | nil =>
      obtain rfl : before = all := Except.ok.inj h
      exact hbefore
  | cons d rest ih =>
      simp only [items, bind_eq_ok] at h
      obtain ⟨a, ha, h⟩ := h
      exact ih (hstep i d before a hbefore ha) h

theorem list_eq_ok {label : String} {d : Document} {items : List Document}
    (h : list label d = .ok items) : items = d.listed := by
  unfold list at h
  unfold Document.listed
  split at h
  · next hface => rw [hface, ← Except.ok.inj h]
  · next hface => rw [hface, ← Except.ok.inj h]
  · simp only [reduceCtorEq] at h

theorem mapping_eq_ok {label : String} {d : Document} {entries : Entries}
    (h : mapping label d = .ok entries) : entries = d.keyed := by
  unfold mapping at h
  unfold Document.keyed
  split at h
  · next hface => rw [hface, ← Except.ok.inj h]
  · next hface => rw [hface, ← Except.ok.inj h]
  · simp only [reduceCtorEq] at h

/-- Where every item is related to what it was read from, the items are so one by one. -/
theorem forall₂_items {α : Type} {read : Nat → Document → List α → Except Failure α}
    {R : Document → α → Prop} {i : Nat} {before all : List α} {ds : List Document}
    (hread : ∀ i d before a, read i d before = .ok a → R d a)
    (h : items read i before ds = .ok all) :
    ∃ later, all = before ++ later ∧ List.Forall₂ R ds later := by
  induction ds generalizing i before with
  | nil =>
      obtain rfl : before = all := Except.ok.inj h
      exact ⟨[], (List.append_nil _).symm, .nil⟩
  | cons d rest ih =>
      simp only [items, bind_eq_ok] at h
      obtain ⟨a, ha, h⟩ := h
      obtain ⟨later, rfl, hlater⟩ := ih h
      exact ⟨a :: later, List.append_assoc before [a] later, .cons (hread i d before a ha) hlater⟩

/-- What a media item is, read from the entries of a mapping. -/
structure MediaOf (entries : Entries) (item : Media × MediaInfo) : Prop where
  id : (Document.get entries "id").display = item.1.id
  parts : ∀ x ∈ item.1.parts, x.IsInt
  /-- The items before it have no part in it. -/
  alone : ∃ label, media label [] entries = .ok item

/-- A media item that is read has an id of its own. -/
theorem media_eq_ok {label : String} {seen : List String} {entries : Entries}
    {item : Media × MediaInfo} (h : media label seen entries = .ok item) :
    MediaOf entries item ∧ item.1.id ∉ seen := by
  obtain ⟨hparts, h⟩ := unless_throw_eq_ok.1 h
  obtain ⟨id, hid, h⟩ := bind_eq_ok.1 h
  obtain ⟨hfresh, h⟩ := unless_throw_eq_ok.1 h
  have halone : media label [] entries = .ok item :=
    unless_throw_eq_ok.2 ⟨hparts, bind_eq_ok.2 ⟨id, hid,
      unless_throw_eq_ok.2 ⟨Bool.false_ne_true, h⟩⟩⟩
  simp only [bind_eq_ok] at h
  obtain ⟨_, -, _, -, _, -, width, -, height, -, _, -, _, -, _, -, h⟩ := h
  obtain rfl := Except.ok.inj h
  refine ⟨⟨Document.display_of_written (liftFault_eq_ok.1 hid), ?_, label, halone⟩, ?_⟩
  · intro x hx
    rcases List.mem_pair.1 hx with rfl | rfl
    · exact ⟨width, rfl⟩
    · exact ⟨height, rfl⟩
  · exact fun hseen => hfresh (List.contains_iff_mem.2 hseen)

theorem notNegative_eq_ok {label : String} {d : Document} {x : Number}
    (h : notNegative label d = .ok x) : x.lt 0 = false := by
  obtain ⟨y, -, h⟩ := bind_eq_ok.1 h
  obtain ⟨hy, h⟩ := unless_throw_eq_ok.1 h
  obtain rfl := Except.ok.inj h
  exact Bool.eq_false_iff.2 hy

/-- What is checked of the numbers of a clip.  A NaN is on the wrong side of no bound. -/
structure CheckedClip (c : Clip) : Prop where
  start : c.start.lt 0 = false
  duration : c.duration.le 0 = false
  trimStart : ∃ t, c.trimStart = some t ∧ t.lt 0 = false
  speed : ∃ v, c.speed = some v ∧ v.lt slowest = false ∧ fastest.lt v = false

theorem number_eq_ok {label : String} {d : Document} {x : Number}
    (h : number label d = .ok x) : d = .number x := by
  unfold number at h
  split at h
  · rw [Except.ok.inj h]
  · simp only [reduceCtorEq] at h

theorem whole_eq_ok {label : String} {d : Document} {n : Int} (h : whole label d = .ok n) :
    d = .number (.int n) := by
  unfold whole at h
  split at h
  · exact congrArg (Document.number ∘ Number.int) (Except.ok.inj h)
  · simp only [reduceCtorEq] at h

theorem volume_eq_ok {label : String} {d : Document} {v : Option Number}
    (h : volume label d = .ok v) : d = v.elim .null .number := by
  unfold volume at h
  split at h
  · obtain rfl := Except.ok.inj h
    rfl
  · obtain ⟨x, hx, h⟩ := bind_eq_ok.1 h
    obtain rfl := Except.ok.inj h
    exact number_eq_ok hx

/-- What a clip is, read from the entries of a mapping. -/
structure ClipOf (entries : Entries) (c : Clip) : Prop extends CheckedClip c where
  id : (Document.get entries "id").display = c.id
  track : part entries "track" (.number 0) = .number (.int c.track)
  volume : Document.get entries "volume" = c.volume.elim .null .number
  videoFilters : ∃ label, FilterSet.ofDocument label .empty
    (Document.get entries "video_filters") = .ok c.videoFilters
  audioFilters : ∃ label, FilterSet.ofDocument label .empty
    (Document.get entries "audio_filters") = .ok c.audioFilters
  alone : ∃ label, clip label entries = .ok c

theorem clip_eq_ok {label : String} {entries : Entries} {c : Clip}
    (h : clip label entries = .ok c) : ClipOf entries c := by
  have halone := h
  obtain ⟨-, h⟩ := unless_throw_eq_ok.1 h
  obtain ⟨track, htrack, h⟩ := bind_eq_ok.1 h
  obtain ⟨start, hstart, h⟩ := bind_eq_ok.1 h
  obtain ⟨duration, -, h⟩ := bind_eq_ok.1 h
  obtain ⟨hduration, h⟩ := unless_throw_eq_ok.1 h
  obtain ⟨trimStart, htrim, h⟩ := bind_eq_ok.1 h
  obtain ⟨speed, -, h⟩ := bind_eq_ok.1 h
  obtain ⟨hspeed, h⟩ := unless_throw_eq_ok.1 h
  obtain ⟨volume, hvolume, h⟩ := bind_eq_ok.1 h
  obtain ⟨id, hid, h⟩ := bind_eq_ok.1 h
  simp only [bind_eq_ok] at h
  obtain ⟨_, -, _, -, _, -, _, -, video, hvideo, audio, haudio, _, -, _, -, h⟩ := h
  obtain rfl := Except.ok.inj h
  obtain ⟨hslow, hfast⟩ := Bool.or_eq_false_iff.1 (Bool.eq_false_iff.2 hspeed)
  constructor
  case toCheckedClip =>
    refine ⟨?_, Bool.eq_false_iff.2 hduration, ⟨trimStart, rfl, ?_⟩, speed, rfl, hslow, hfast⟩
    · exact notNegative_eq_ok (liftRejection_eq_ok.1 hstart)
    · exact notNegative_eq_ok (liftRejection_eq_ok.1 htrim)
  case id => exact Document.display_of_written (liftFault_eq_ok.1 hid)
  case track => exact whole_eq_ok (liftRejection_eq_ok.1 htrack)
  case volume => exact volume_eq_ok (liftRejection_eq_ok.1 hvolume)
  case videoFilters => exact ⟨_, hvideo⟩
  case audioFilters => exact ⟨_, haudio⟩
  case alone => exact ⟨label, halone⟩

theorem track_eq_ok {label : String} {entries : Entries} {t : Track}
    (h : track label entries = .ok t) :
    Document.get entries "id" = .number (.int t.id) := by
  obtain ⟨id, hid, h⟩ := bind_eq_ok.1 h
  simp only [bind_eq_ok] at h
  obtain ⟨_, -, _, -, _, -, _, -, h⟩ := h
  obtain rfl := Except.ok.inj h
  exact whole_eq_ok (liftRejection_eq_ok.1 hid)

theorem mediaItem_eq_ok {i : Nat} {d : Document} {before : List (Media × MediaInfo)}
    {item : Media × MediaInfo} (h : mediaItem i d before = .ok item) :
    MediaOf d.keyed item ∧ item.1.id ∉ before.map (·.1.id) := by
  rw [mediaItem] at h
  split at h
  · next entries hface =>
      rw [Document.keyed_of_face hface]
      exact media_eq_ok h
  · simp only [reduceCtorEq] at h

theorem trackItem_eq_ok {i : Nat} {d : Document} {before : List Track} {t : Track}
    (h : trackItem i d before = .ok t) :
    Document.get d.keyed "id" = .number (.int t.id) := by
  rw [trackItem] at h
  split at h
  · next entries hface =>
      rw [Document.keyed_of_face hface]
      exact track_eq_ok h
  · simp only [reduceCtorEq] at h

/-- A clip that is read has an id of its own, and a declared track if any is declared. -/
theorem clipItem_eq_ok {tracks : List Track} {i : Nat} {d : Document} {before : List Clip}
    {c : Clip} (h : clipItem tracks i d before = .ok c) :
    ClipOf d.keyed c ∧ c.id ∉ before.map Clip.id ∧
      (tracks = [] ∨ c.track ∈ tracks.map Track.id) := by
  rw [clipItem] at h
  split at h
  · next entries hface =>
      rw [Document.keyed_of_face hface]
      obtain ⟨c', hclip, h⟩ := bind_eq_ok.1 h
      obtain ⟨hfresh, h⟩ := unless_throw_eq_ok.1 h
      simp only at h
      split at h
      · obtain ⟨_, -, h⟩ := bind_eq_ok.1 h
        exact nomatch h
      · next hknown =>
          obtain rfl : c' = c := Except.ok.inj h
          refine ⟨clip_eq_ok hclip, ?_, ?_⟩
          · intro hmem
            obtain ⟨b, hb, hid⟩ := List.mem_map.1 hmem
            exact hfresh (List.any_eq_true.2 ⟨b, hb, beq_iff_eq.2 hid⟩)
          · rw [Bool.and_eq_true, not_and_or, Bool.not_eq_true', Bool.not_eq_true',
              Bool.not_eq_false, Bool.not_eq_false, List.isEmpty_iff] at hknown
            refine hknown.imp id fun hany => ?_
            obtain ⟨t, ht, hid⟩ := List.any_eq_true.1 hany
            exact List.mem_map.2 ⟨t, ht, beq_iff_eq.1 hid⟩
  · simp only [reduceCtorEq] at h

/-- Where none of the items has what one before it has, all have different ones. -/
theorem nodup_items {α β : Type} {read : Nat → Document → List α → Except Failure α}
    {f : α → β} {ds : List Document} {all : List α}
    (hfresh : ∀ i d before a, read i d before = .ok a → f a ∉ before.map f)
    (h : items read 0 [] ds = .ok all) : (all.map f).Nodup := by
  refine items_spec (P := fun all => (all.map f).Nodup) ?_ ?_ h
  · intro i d before a hbefore hread
    rw [List.map_append, List.map_singleton]
    exact hbefore.append (List.nodup_singleton _)
      (List.disjoint_singleton.2 (hfresh i d before a hread))
  · exact List.nodup_nil

theorem mediaItems_spec {ds : List Document} {all : List (Media × MediaInfo)}
    (h : items mediaItem 0 [] ds = .ok all) :
    List.Forall₂ (fun d item => MediaOf d.keyed item) ds all ∧ (all.map (·.1.id)).Nodup := by
  obtain ⟨_, rfl, hall⟩ := forall₂_items (R := fun d item => MediaOf d.keyed item)
    (fun i d before a hread => (mediaItem_eq_ok hread).1) h
  exact ⟨hall, nodup_items (fun i d before a hread => (mediaItem_eq_ok hread).2) h⟩

theorem trackItems_spec {ds : List Document} {all : List Track}
    (h : items trackItem 0 [] ds = .ok all) :
    List.Forall₂ (fun d t => Document.get d.keyed "id" = .number (.int t.id)) ds all := by
  obtain ⟨_, rfl, hall⟩ := forall₂_items
    (R := fun d t => Document.get d.keyed "id" = .number (.int t.id))
    (fun i d before a hread => trackItem_eq_ok hread) h
  exact hall

section Clips

variable {tracks : List Track} {ds : List Document} {all : List Clip}
  (h : items (clipItem tracks) 0 [] ds = .ok all)
include h

theorem forall₂_clipItems :
    List.Forall₂ (fun d c => ClipOf d.keyed c ∧ (tracks = [] ∨ c.track ∈ tracks.map Track.id))
      ds all := by
  obtain ⟨_, rfl, hall⟩ := forall₂_items
    (R := fun d c => ClipOf d.keyed c ∧ (tracks = [] ∨ c.track ∈ tracks.map Track.id))
    (fun i d before c hread => ⟨(clipItem_eq_ok hread).1, (clipItem_eq_ok hread).2.2⟩) h
  exact hall

theorem clipItems_spec : (all.map Clip.id).Nodup ∧ ∀ c ∈ all, CheckedClip c := by
  refine ⟨nodup_items (fun i d before c hread => (clipItem_eq_ok hread).2.1) h, ?_⟩
  intro c hc
  obtain ⟨d, -, hclip, -⟩ := exists_of_mem_forall₂ (forall₂_clipItems h) hc
  exact hclip.toCheckedClip

end Clips

section Settings

variable {s s' : ExportSettings} {entries : Entries}

theorem frame_eq_ok {d : Document} {f : Frame} (h : frame d = .ok f) :
    ∀ x ∈ f.parts, x.IsInt := by
  rw [frame] at h
  split at h
  · obtain rfl := Except.ok.inj h
    exact List.forall_mem_nil _
  · obtain ⟨width, -, h⟩ := bind_eq_ok.1 h
    obtain ⟨height, -, h⟩ := bind_eq_ok.1 h
    obtain ⟨-, h⟩ := unless_throw_eq_ok.1 h
    obtain rfl := Except.ok.inj h
    intro x hx
    rcases List.mem_pair.1 hx with rfl | rfl
    · exact ⟨width, rfl⟩
    · exact ⟨height, rfl⟩
  · split at h
    · obtain rfl := Except.ok.inj h
      exact List.forall_mem_nil _
    · simp only [reduceCtorEq] at h

theorem override_spec {α : Type} {key : String}
    {read : String → Document → Except Failure α}
    {change : α → ExportSettings → ExportSettings} {P : ExportSettings → Prop}
    (hchange : ∀ a s, P s → P (change a s)) (hs : P s)
    (h : override entries key read change s = .ok s') : P s' := by
  rw [override] at h
  split at h
  · obtain rfl := Except.ok.inj h
    exact hs
  · obtain ⟨a, -, h⟩ := bind_eq_ok.1 h
    obtain rfl := Except.ok.inj h
    exact hchange a s hs

theorem overrideFrame_spec (hs : s.WellFormed) (h : overrideFrame entries s = .ok s') :
    s'.WellFormed := by
  rw [overrideFrame] at h
  split at h
  · obtain rfl := Except.ok.inj h
    exact hs
  · obtain ⟨f, hf, h⟩ := bind_eq_ok.1 h
    obtain rfl := Except.ok.inj h
    exact { hs with frame := frame_eq_ok hf }

theorem overrideEnd_spec (hs : s.WellFormed) (h : overrideEnd entries s = .ok s') :
    s'.WellFormed := by
  rw [overrideEnd] at h
  split at h
  · obtain rfl := Except.ok.inj h
    exact hs
  · obtain ⟨x, -, h⟩ := bind_eq_ok.1 h
    obtain rfl := Except.ok.inj h
    exact { hs with }

theorem overrides_spec (hs : s.WellFormed) (h : overrides entries s = .ok s') :
    s'.WellFormed := by
  obtain ⟨_, hframe, h⟩ := bind_eq_ok.1 h
  obtain ⟨_, hfps, h⟩ := bind_eq_ok.1 h
  obtain ⟨_, hcrf, h⟩ := bind_eq_ok.1 h
  obtain ⟨_, hsampleRate, h⟩ := bind_eq_ok.1 h
  obtain ⟨_, hstart, h⟩ := bind_eq_ok.1 h
  obtain ⟨_, hend, h⟩ := bind_eq_ok.1 h
  obtain ⟨_, hvideoCodec, h⟩ := bind_eq_ok.1 h
  obtain ⟨_, hvideoBitrate, h⟩ := bind_eq_ok.1 h
  obtain ⟨_, haudioCodec, h⟩ := bind_eq_ok.1 h
  obtain ⟨_, haudioBitrate, h⟩ := bind_eq_ok.1 h
  obtain ⟨_, hformat, h⟩ := bind_eq_ok.1 h
  obtain ⟨_, houtput, h⟩ := bind_eq_ok.1 h
  obtain ⟨_, hpreset, h⟩ := bind_eq_ok.1 h
  obtain ⟨_, hclick, h⟩ := bind_eq_ok.1 h
  have hs := overrideFrame_spec hs hframe
  have hs := override_spec (fun x _ hs => { hs with fps := ⟨x, rfl, trivial⟩ }) hs hfps
  have hs := override_spec (fun x _ hs => { hs with crf := ⟨x, rfl, trivial⟩ }) hs hcrf
  have hs := override_spec (fun x _ hs => { hs with sampleRate := ⟨x, rfl, trivial⟩ }) hs
    hsampleRate
  have hs := override_spec (fun _ _ hs => { hs with }) hs hstart
  have hs := overrideEnd_spec hs hend
  have hs := override_spec (fun t _ hs => { hs with videoCodec := ⟨t, rfl⟩ }) hs hvideoCodec
  have hs := override_spec (fun t _ hs => { hs with videoBitrate := ⟨t, rfl⟩ }) hs
    hvideoBitrate
  have hs := override_spec (fun t _ hs => { hs with audioCodec := ⟨t, rfl⟩ }) hs haudioCodec
  have hs := override_spec (fun t _ hs => { hs with audioBitrate := ⟨t, rfl⟩ }) hs
    haudioBitrate
  have hs := override_spec (fun t _ hs => { hs with format := ⟨t, rfl⟩ }) hs hformat
  have hs := override_spec (fun t _ hs => { hs with outputFile := .inr ⟨t, rfl⟩ }) hs houtput
  have hs := override_spec (fun t _ hs => { hs with preset := ⟨t, rfl⟩ }) hs hpreset
  have hs := override_spec (fun _ _ hs => { hs with }) hs hclick
  refine override_spec ?_ hs h
  intro _ _ hs
  exact { hs with }

theorem wellFormed_default : ExportSettings.WellFormed {} where
  fps := ⟨_, rfl, trivial⟩
  crf := ⟨_, rfl, trivial⟩
  sampleRate := ⟨_, rfl, trivial⟩
  videoCodec := ⟨_, rfl⟩
  videoBitrate := ⟨_, rfl⟩
  preset := ⟨_, rfl⟩
  audioCodec := ⟨_, rfl⟩
  audioBitrate := ⟨_, rfl⟩
  format := ⟨_, rfl⟩
  outputFile := .inl rfl
  frame := List.forall_mem_nil _

/-- The sizes that presets fix are whole numbers. -/
theorem preset_frame : ∀ p ∈ Preset.all, ∀ x ∈ p.resolution.parts, x.IsInt := by
  have hinteger : ∀ p ∈ Preset.all, ∀ x ∈ p.resolution.parts, x.truncate.map .int = .ok x := by
    decide
  intro p hp x hx
  obtain ⟨n, -, hn⟩ := exists_of_map_eq_ok (hinteger p hp x hx)
  exact ⟨n, hn.symm⟩

theorem wellFormed_of_preset {p : Preset} (hp : p ∈ Preset.all) (hs : s.WellFormed) :
    (p.apply s).WellFormed :=
  { hs with
    fps := ⟨_, rfl, trivial⟩
    crf := ⟨_, rfl, trivial⟩
    sampleRate := ⟨_, rfl, trivial⟩
    videoCodec := ⟨_, rfl⟩
    videoBitrate := ⟨_, rfl⟩
    preset := ⟨_, rfl⟩
    audioCodec := ⟨_, rfl⟩
    audioBitrate := ⟨_, rfl⟩
    frame := preset_frame p hp }

theorem presetNamed_eq_ok {d : Document} {p : Preset} (h : presetNamed d = .ok p) :
    Preset.named? d = some p := by
  unfold presetNamed at h
  split at h
  · split at h
    · next hfind => rw [Preset.named?, hfind, Except.ok.inj h]
    · simp only [reduceCtorEq] at h
  · split at h
    · obtain ⟨_, -, h⟩ := bind_eq_ok.1 h
      simp only [throw, throwThe, MonadExceptOf.throw, reduceCtorEq] at h
    · simp only [reduceCtorEq] at h

theorem presetSettings_spec {chosen : Document} (h : presetSettings chosen = .ok s) :
    s.WellFormed := by
  rw [presetSettings] at h
  split at h
  · obtain rfl := Except.ok.inj h
    exact wellFormed_default
  · obtain ⟨p, hp, h⟩ := bind_eq_ok.1 h
    obtain rfl := Except.ok.inj h
    exact wellFormed_of_preset (Preset.mem_of_named? (presetNamed_eq_ok hp)) wellFormed_default

theorem settings_spec {output preset : Option String} {d : Document}
    (h : settings output preset d = .ok s) : s.WellFormed := by
  obtain ⟨entries, -, h⟩ := bind_eq_ok.1 h
  obtain ⟨_, -, h⟩ := bind_eq_ok.1 h
  obtain ⟨base, hbase, h⟩ := bind_eq_ok.1 h
  obtain ⟨s', hs', h⟩ := bind_eq_ok.1 h
  have hs := overrides_spec (presetSettings_spec hbase) hs'
  split at h
  · obtain rfl := Except.ok.inj h
    exact { hs with outputFile := .inr ⟨_, rfl⟩ }
  · obtain rfl := Except.ok.inj h
    exact hs

end Settings

end Reading

namespace Snapshot

/-- The snapshot is made of the parts that are read from the entries of a document. -/
structure ReadFrom (output preset : Option String) (entries : Entries) (s : Snapshot) :
    Prop where
  media : ∃ ds items, Reading.list "media" (Document.get entries "media") = .ok ds ∧
    Reading.items Reading.mediaItem 0 [] ds = .ok items ∧ s.media = items.map (·.1) ∧
    s.infos = items.map fun m => (m.1.id, m.2)
  tracks : ∃ ds, Reading.list "tracks" (Document.get entries "tracks") = .ok ds ∧
    Reading.items Reading.trackItem 0 [] ds = .ok s.tracks
  clips : ∃ ds, Reading.list "clips" (Document.get entries "clips") = .ok ds ∧
    Reading.items (Reading.clipItem s.tracks) 0 [] ds = .ok s.clips
  defaults : Reading.defaults (Document.get entries "defaults") = .ok s.defaults
  settings : Reading.settings output preset (Document.get entries "export") = .ok s.settings

variable {output preset : Option String} {d : Document} {s : Snapshot}

theorem readFrom_of_ofDocument (h : ofDocument output preset d = .ok s) :
    ∃ entries, d.face = .map entries ∧ s.ReadFrom output preset entries := by
  rw [ofDocument] at h
  split at h
  · next entries hface =>
      obtain ⟨-, h⟩ := unless_throw_eq_ok.1 h
      obtain ⟨-, h⟩ := unless_throw_eq_ok.1 h
      obtain ⟨-, h⟩ := unless_throw_eq_ok.1 h
      obtain ⟨mediaItems, hmediaItems, h⟩ := bind_eq_ok.1 h
      obtain ⟨media, hmedia, h⟩ := bind_eq_ok.1 h
      obtain ⟨trackItems, htrackItems, h⟩ := bind_eq_ok.1 h
      obtain ⟨tracks, htracks, h⟩ := bind_eq_ok.1 h
      obtain ⟨clipItems, hclipItems, h⟩ := bind_eq_ok.1 h
      obtain ⟨clips, hclips, h⟩ := bind_eq_ok.1 h
      obtain ⟨defaults, hdefaults, h⟩ := bind_eq_ok.1 h
      obtain ⟨settings, hsettings, h⟩ := bind_eq_ok.1 h
      obtain rfl := Except.ok.inj h
      refine ⟨entries, hface, ?_, ?_, ?_, hdefaults, hsettings⟩
      · exact ⟨mediaItems, media, liftRejection_eq_ok.1 hmediaItems, hmedia, rfl, rfl⟩
      · exact ⟨trackItems, liftRejection_eq_ok.1 htrackItems, htracks⟩
      · exact ⟨clipItems, liftRejection_eq_ok.1 hclipItems, hclips⟩
  · simp only [reduceCtorEq] at h

/-- A snapshot that is read from a document is well formed. -/
theorem wellFormed_of_ofDocument (h : ofDocument output preset d = .ok s) : s.WellFormed := by
  obtain ⟨entries, -, hread⟩ := readFrom_of_ofDocument h
  obtain ⟨_, media, -, hitems, hmedia, -⟩ := hread.media
  obtain ⟨_, -, hclips⟩ := hread.clips
  obtain ⟨hids, hchecked⟩ := Reading.clipItems_spec hclips
  refine ⟨hids, fun c hc => (hchecked c hc).start, fun c hc => (hchecked c hc).duration, ?_,
    Reading.settings_spec hread.settings⟩
  intro m hm
  rw [hmedia] at hm
  obtain ⟨item, hitem, rfl⟩ := List.mem_map.1 hm
  obtain ⟨d, -, hof⟩ := exists_of_mem_forall₂ (Reading.mediaItems_spec hitems).1 hitem
  exact hof.parts

end Snapshot

end Montage
