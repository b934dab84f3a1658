import Montage.Proofs.Snapshot.Bounds

/-!
The ids in loaded snapshots.

An id is the text of whatever the document holds for it, so that a number and its digits are one
id.  Media and clips come in the order of their entries, one for each, and have ids of their own;
clips lie on tracks that are declared.  A document in which two entries share an id is not loaded.
-/

namespace Montage

namespace Document

/-- The entries of the list that a key of a document holds. -/
def itemsOf (d : Document) (key : String) : List Document := (get d.keyed key).listed

/-- The text of the id of an entry. -/
def idText (entry : Document) : String := (get entry.keyed "id").display

end Document

/-- Values that are related one by one have the same image. -/
theorem map_eq_map_of_forall₂ {α β γ : Type} {R : α → β → Prop} {f : α → γ} {g : β → γ}
    {l : List α} {m : List β} (h : List.Forall₂ R l m) (hR : ∀ a b, R a b → f a = g b) :
    l.map f = m.map g := by
  rw [← List.forall₂_eq_eq_eq, List.forall₂_map_left_iff, List.forall₂_map_right_iff]
  exact h.imp hR

/-- Among media with ids of their own each is found by its id. -/
theorem findMedia?_of_nodup {media : List Media} (h : (media.map Media.id).Nodup) {m : Media}
    (hm : m ∈ media) : findMedia? media m.id = some m := by
  cases hfound : findMedia? media m.id with
  | none =>
      have hnot := List.find?_eq_none.1 hfound m (List.mem_reverse.2 hm)
      exact absurd (beq_self_eq_true m.id) hnot
  | some other =>
      have hmem := List.mem_reverse.1 (List.mem_of_find?_eq_some hfound)
      have hsame := List.find?_some hfound
      rw [List.inj_on_of_nodup_map h hmem hm (beq_iff_eq.1 hsame)]

namespace Snapshot

/-- The ids of a snapshot are those of the entries of a document, and name one thing each. -/
structure Identified (d : Document) (s : Snapshot) : Prop where
  /-- The media come in the order of their entries, each read from its own. -/
  media : List.Forall₂ (fun entry m => ∃ label info,
    Reading.media label [] entry.keyed = .ok (m, info)) (d.itemsOf "media") s.media
  mediaIds : (d.itemsOf "media").map Document.idText = s.media.map Media.id
  mediaIds_nodup : (s.media.map Media.id).Nodup
  /-- What is known of the streams is known of each media item, and of nothing else. -/
  infos : s.infos.map Prod.fst = s.media.map Media.id
  findMedia : ∀ m ∈ s.media, findMedia? s.media m.id = some m
  /-- The clips come in the order of their entries, each read from its own. -/
  clips : List.Forall₂ (fun entry c => ∃ label, Reading.clip label entry.keyed = .ok c)
    (d.itemsOf "clips") s.clips
  clipIds : (d.itemsOf "clips").map Document.idText = s.clips.map Clip.id
  clipIds_nodup : (s.clips.map Clip.id).Nodup
  trackIds : (d.itemsOf "tracks").map (fun entry => Document.get entry.keyed "id") =
    s.tracks.map fun t => .number (.int t.id)
  /-- Where tracks are declared, clips lie on them. -/
  onTracks : d.itemsOf "tracks" ≠ [] → ∀ c ∈ s.clips, c.track ∈ s.tracks.map Track.id

variable {output preset : Option String} {d : Document} {s : Snapshot}

theorem ReadFrom.identified (hread : s.ReadFrom output preset d.keyed) : s.Identified d := by
  obtain ⟨_, items, hlist, hitems, hmedia, hinfos⟩ := hread.media
  obtain rfl := Reading.list_eq_ok hlist
  obtain ⟨hitem, hnodup⟩ := Reading.mediaItems_spec hitems
  have hids : items.map (·.1.id) = s.media.map Media.id := by
    rw [hmedia, List.map_map]
    rfl
  obtain ⟨_, htracklist, htrackItems⟩ := hread.tracks
  obtain rfl := Reading.list_eq_ok htracklist
  have htracks := Reading.trackItems_spec htrackItems
  obtain ⟨_, hcliplist, hclipItems⟩ := hread.clips
  obtain rfl := Reading.list_eq_ok hcliplist
  have hclips := Reading.forall₂_clipItems hclipItems
  constructor
  case media =>
    rw [hmedia, List.forall₂_map_right_iff]
    refine hitem.imp fun entry item hof => ?_
    obtain ⟨label, halone⟩ := hof.alone
    exact ⟨label, item.2, halone⟩
  case mediaIds => exact (map_eq_map_of_forall₂ hitem fun _ _ hof => hof.id).trans hids
  case mediaIds_nodup => rwa [← hids]
  case infos =>
    rw [← hids, hinfos, List.map_map]
    rfl
  case findMedia => exact fun m => findMedia?_of_nodup (by rwa [← hids])
  case clips => exact hclips.imp fun _ _ hof => hof.1.alone
  case clipIds => exact map_eq_map_of_forall₂ hclips fun _ _ hof => hof.1.id
  case clipIds_nodup => exact (Reading.clipItems_spec hclipItems).1
  case trackIds => exact map_eq_map_of_forall₂ htracks fun _ _ => id
  case onTracks =>
    intro hsome c hc
    obtain ⟨entry, -, -, hnone | hon⟩ := exists_of_mem_forall₂ hclips hc
    · rw [hnone, List.forall₂_nil_right_iff] at htracks
      exact absurd htracks hsome
    · exact hon

/-- The ids of a loaded snapshot are unique and name what is there; a document in which two entries
share an id is not loaded. -/
theorem identified_of_load (name : String) (output preset : Option String) (size : Nat)
    (d : Document) :
    (∀ s, load name output preset (some ⟨size, .ok d⟩) = .ok s → s.Identified d) ∧
      ∀ key ∈ ["media", "clips"], ¬((d.itemsOf key).map Document.idText).Nodup →
        ∀ s, load name output preset (some ⟨size, .ok d⟩) ≠ .ok s := by
  have hloaded : ∀ s, load name output preset (some ⟨size, .ok d⟩) = .ok s →
      s.Identified d :=
    fun s h => (readFrom_of_load h).identified
  refine ⟨hloaded, ?_⟩
  intro key hkey hshared s h
  have hs := hloaded s h
  apply hshared
  rcases List.mem_pair.1 hkey with rfl | rfl
  · rw [hs.mediaIds]
    exact hs.mediaIds_nodup
  · rw [hs.clipIds]
    exact hs.clipIds_nodup

end Snapshot

/-- A document with a film and another thing of some id, and a clip of the film on a track. -/
def filmAnd (id : Document) : Document := .map [
  (.text "stackcut", .number 1),
  (.text "media", .list [.map [(.text "id", .number 1), (.text "name", .text "film.mp4")],
    .map [(.text "id", id), (.text "name", .text "tape.wav")]]),
  (.text "tracks", .list [.map [(.text "id", .number 3)]]),
  (.text "clips", .list [.map [(.text "id", .text "first"), (.text "media", .number 1),
    (.text "track", .number 3), (.text "duration", .number 1000)]])]

/-- The number one and the text of its digit are one id. -/
theorem identified_of_filmAnd :
    (∃ s, Snapshot.load "film.yaml" none none (some ⟨100, .ok (filmAnd (.number 2))⟩) = .ok s ∧
      s.media.map Media.id = ["1", "2"] ∧ s.Identified (filmAnd (.number 2))) ∧
      ¬(((filmAnd (.text "1")).itemsOf "media").map Document.idText).Nodup ∧
      ∀ s, Snapshot.load "film.yaml" none none (some ⟨100, .ok (filmAnd (.text "1"))⟩) ≠ .ok s := by
  have hload : (Snapshot.load "film.yaml" none none (some ⟨100, .ok (filmAnd (.number 2))⟩)).map
      (fun s => s.media.map Media.id) = .ok ["1", "2"] := by
    decide +kernel
  have hshared : ¬(((filmAnd (.text "1")).itemsOf "media").map Document.idText).Nodup := by
    decide +kernel
  obtain ⟨s, hs, hids⟩ := exists_of_map_eq_ok hload
  refine ⟨⟨s, hs, hids, ?_⟩, hshared, ?_⟩
  · exact (Snapshot.identified_of_load "film.yaml" none none 100 _).1 s hs
  · exact (Snapshot.identified_of_load "film.yaml" none none 100 _).2 "media" (by decide) hshared

end Montage
