import Montage.Proofs.Filter.Agree
import Montage.Proofs.Snapshot.Identity

/-!
The filters of loaded clips, from the document to the export.

For each key a clip is played with the value that its own filters hold, else with the one that the
defaults of the document hold, else with the neutral one; a null is no value.  The volume of a clip
stands before that of its filters.
-/

namespace Montage

namespace Document

/-- The value other than null that entries hold for a key, the last one if there are several. -/
def held? (entries : List (Document × Document)) (key : String) : Option Document :=
  (entries.reverse.find? fun e => e.1.agrees (.text key) && !e.2.isNull).map (·.2)

theorem held?_cons (e : Document × Document) (rest : List (Document × Document))
    (key : String) : held? (e :: rest) key =
      (held? rest key).or (if e.1.agrees (.text key) && !e.2.isNull then some e.2 else none) := by
  rw [held?, held?, List.reverse_cons, List.find?_append, Option.map_or, List.find?_singleton,
    Option.map_if]

theorem agrees_text (s t : String) : (text s).agrees (.text t) = (s == t) := rfl

theorem isNull_eq_false {d : Document} (h : d ≠ null) : d.isNull = false := by
  cases d with
  | null => exact absurd rfl h
  | _ => rfl

end Document

open Document

/-- The value for a filter key in the filters of a clip, else in those for all clips, else the
neutral one. -/
def FilterKey.layered {K : Type} [FilterKey K] (own shared : Document) (k : K) : Document :=
  ((held? own.keyed (name k)).or (held? shared.keyed (name k))).getD (neutral k).toDocument

namespace FilterValue

variable {K : Type} [FilterKey K]

theorem toDocument_of_ofDocument {label : String} {k : K} {d : Document} {v : FilterValue}
    (h : ofDocument label k d = .ok v) : v.toDocument = d := by
  unfold ofDocument at h
  split at h <;> split at h
  · obtain rfl := Except.ok.inj h
    rfl
  · simp only [reduceCtorEq] at h
  · simp only [reduceCtorEq] at h
  · obtain rfl := Except.ok.inj h
    rfl
  · simp only [reduceCtorEq] at h
  · simp only [reduceCtorEq] at h

/-- Values compare as they do in a document. -/
theorem agrees_toDocument (v w : FilterValue) : v.toDocument.agrees w.toDocument = v.agrees w := by
  cases v <;> cases w <;> rfl

end FilterValue

namespace FilterSet

variable {K : Type} [FilterKey K]

theorem keyOf?_eq_some {key : Document} {k : K} (h : keyOf? key = some k) :
    key = .text (FilterKey.name k) := by
  cases key with
  | text s =>
      have hname := List.find?_some h
      rw [beq_iff_eq.1 hname]
  | _ => simp [keyOf?] at h

section Reading

variable [DecidableEq K] (hname : Function.Injective (FilterKey.name (K := K)))
  {label : String} {base s : FilterSet K}
include hname

/-- Of the entries put into a set, those that are not null take the place of its own values. -/
theorem value?_putEntries {entries : List (Document × Document)}
    (h : base.putEntries label entries = .ok s) (k : K) :
    (s.value? k).map FilterValue.toDocument =
      (held? entries (FilterKey.name k)).or ((base.value? k).map FilterValue.toDocument) := by
  induction entries generalizing base with
  | nil =>
      obtain rfl : base = s := Except.ok.inj h
      rfl
  | cons e rest ih =>
      obtain ⟨key, value⟩ := e
      rw [held?_cons]
      unfold putEntries at h
      split at h
      case h_1 =>
        obtain ⟨_, -, h⟩ := bind_eq_ok.1 h
        exact nomatch h
      case h_2 =>
        rw [ih h, isNull, Bool.not_true, Bool.and_false, if_neg Bool.false_ne_true, Option.or_none]
      case h_3 value _ _ k' hkey hnull =>
        obtain ⟨v, hv, h⟩ := bind_eq_ok.1 h
        have hvalue := FilterValue.toDocument_of_ofDocument (liftRejection_eq_ok.1 hv)
        have hsame : (Document.text (FilterKey.name k')).agrees (.text (FilterKey.name k)) =
            decide (k = k') := by
          rw [agrees_text, beq_eq_decide, decide_eq_decide, hname.eq_iff, eq_comm]
        rw [ih h, keyOf?_eq_some hkey, isNull_eq_false hnull, Bool.not_false, Bool.and_true,
          Option.or_assoc, hsame, put]
        by_cases hk : k = k'
        · simp only [hk, ↓reduceIte, decide_true, Option.map_some, Option.some_or, hvalue]
        · simp only [hk, ↓reduceIte, decide_false, Bool.false_eq_true, Option.none_or]

/-- The value of each key in a set that a document holds, over a set for the keys that it lacks. -/
theorem value?_ofDocument {d : Document} (h : ofDocument label base d = .ok s) (k : K) :
    (s.value? k).map FilterValue.toDocument =
      (held? d.keyed (FilterKey.name k)).or ((base.value? k).map FilterValue.toDocument) := by
  unfold ofDocument at h
  unfold keyed
  split at h
  · next hface =>
      obtain rfl := Except.ok.inj h
      rw [hface]
      rfl
  · next hface =>
      rw [hface]
      exact value?_putEntries hname h k
  · simp only [reduceCtorEq] at h

/-- Overrides that a document holds, merged over a set that another one holds. -/
theorem value?_merged {label' : String} {own shared : FilterSet K} {d d' : Document}
    (hown : ofDocument label .empty d = .ok own)
    (hshared : ofDocument label' .neutral d' = .ok shared) (k : K) :
    ((shared.merged own).value? k).map FilterValue.toDocument =
      some (FilterKey.layered d d' k) := by
  rw [merged, Option.map_or, value?_ofDocument hname hown, value?_ofDocument hname hshared,
    FilterKey.layered]
  rw [empty, neutral, Option.map_none, Option.or_none, Option.map_some, ← Option.or_assoc,
    Option.or_some]

end Reading

/-- A set is neutral when the value of each of its keys is the neutral one. -/
theorem agrees_neutral_iff (hkeys : ∀ k, k ∈ FilterKey.keys (K := K)) {s : FilterSet K}
    {f : K → Document} (h : ∀ k, (s.value? k).map FilterValue.toDocument = some (f k)) :
    s.agrees .neutral = true ↔
      ∀ k, (f k).agrees (FilterKey.neutral k).toDocument = true := by
  rw [agrees, List.all_eq_true]
  have hsame : ∀ k, sameValue (s.value? k) ((neutral : FilterSet K).value? k) =
      (f k).agrees (FilterKey.neutral k).toDocument := by
    intro k
    obtain ⟨v, hv, hf⟩ := Option.map_eq_some_iff.1 (h k)
    rw [hv, ← hf, FilterValue.agrees_toDocument]
    rfl
  exact ⟨fun hall k => hsame k ▸ hall k (hkeys k), fun hall k _ => (hsame k).symm ▸ hall k⟩

end FilterSet

/-- Keys that are read back from their names have names of their own. -/
theorem FilterKey.name_injective {K : Type} [FilterKey K]
    (h : ∀ k : K, ofName? (name k) = some k) : Function.Injective (name (K := K)) := by
  intro j k hname
  apply Option.some.inj
  rw [← h j, ← h k, hname]

theorem videoName_injective : Function.Injective (FilterKey.name (K := VideoKey)) :=
  FilterKey.name_injective fun k => by cases k <;> decide

theorem audioName_injective : Function.Injective (FilterKey.name (K := AudioKey)) :=
  FilterKey.name_injective fun k => by cases k <;> decide

namespace Document

/-- The value with which a clip is played for a video filter. -/
def videoFilter (clip defaults : Document) (k : VideoKey) : Document :=
  FilterKey.layered (get clip.keyed "video_filters") (get defaults.keyed "video") k

/-- The value with which a clip is played for an audio filter. -/
def audioFilter (clip defaults : Document) (k : AudioKey) : Document :=
  FilterKey.layered (get clip.keyed "audio_filters") (get defaults.keyed "audio") k

/-- The volume with which a clip is played. -/
def clipVolume (clip defaults : Document) : Document :=
  match get clip.keyed "volume" with
  | null => clip.audioFilter defaults .volume
  | volume => volume

end Document

/-- The filters of a clip are those that its entry and the defaults of its document call for. -/
structure Effective.Layered (clip defaults : Document) (e : Effective) : Prop where
  video : ∀ k, (e.video.value? k).map FilterValue.toDocument = some (clip.videoFilter defaults k)
  audio : ∀ k, (e.audio.value? k).map FilterValue.toDocument = some (clip.audioFilter defaults k)
  volume : e.volume = clip.clipVolume defaults
  isNeutral : e.isNeutral = true ↔
    (∀ k, (clip.videoFilter defaults k).agrees (FilterKey.neutral k).toDocument = true) ∧
      (∀ k, (clip.audioFilter defaults k).agrees (FilterKey.neutral k).toDocument = true) ∧
      (clip.clipVolume defaults).agrees (.number 1) = true

theorem Effective.layered_of_values {clip defaults : Document} {e : Effective}
    (hvideo : ∀ k, (e.video.value? k).map FilterValue.toDocument =
      some (clip.videoFilter defaults k))
    (haudio : ∀ k, (e.audio.value? k).map FilterValue.toDocument =
      some (clip.audioFilter defaults k))
    (hvolume : e.volume = clip.clipVolume defaults) : e.Layered clip defaults := by
  refine ⟨hvideo, haudio, hvolume, ?_⟩
  rw [isNeutral, Bool.and_eq_true, Bool.and_eq_true, and_assoc, hvolume,
    FilterSet.agrees_neutral_iff mem_videoKeys hvideo,
    FilterSet.agrees_neutral_iff mem_audioKeys haudio]

theorem Reading.defaults_eq_ok {d : Document} {defaults : Defaults}
    (h : Reading.defaults d = .ok defaults) :
    FilterSet.ofDocument "defaults.video" .neutral (get d.keyed "video") = .ok defaults.video ∧
      FilterSet.ofDocument "defaults.audio" .neutral (get d.keyed "audio") =
        .ok defaults.audio := by
  obtain ⟨entries, hentries, h⟩ := bind_eq_ok.1 h
  obtain rfl := mapping_eq_ok (liftRejection_eq_ok.1 hentries)
  obtain ⟨video, hvideo, h⟩ := bind_eq_ok.1 h
  obtain ⟨audio, haudio, h⟩ := bind_eq_ok.1 h
  obtain rfl := Except.ok.inj h
  exact ⟨hvideo, haudio⟩

theorem Reading.ClipOf.layered {entry d : Document} {c : Clip} {defaults : Defaults}
    (hc : Reading.ClipOf entry.keyed c) (hdefaults : Reading.defaults d = .ok defaults) :
    (defaults.effective c).Layered entry d := by
  obtain ⟨hvideo, haudio⟩ := defaults_eq_ok hdefaults
  obtain ⟨_, hvideoFilters⟩ := hc.videoFilters
  obtain ⟨_, haudioFilters⟩ := hc.audioFilters
  have hsound := FilterSet.value?_merged audioName_injective haudioFilters haudio
  refine Effective.layered_of_values
    (FilterSet.value?_merged videoName_injective hvideoFilters hvideo) hsound ?_
  rw [clipVolume, hc.volume]
  cases hvolume : c.volume with
  | none =>
      obtain ⟨v, hv, hf⟩ := Option.map_eq_some_iff.1 (hsound .volume)
      simp only [Defaults.effective, Defaults.volumeOf, hvolume, hv]
      exact hf
  | some x =>
      simp only [Defaults.effective, Defaults.volumeOf, hvolume]
      rfl

/-- Each clip of a loaded snapshot is played with the filters that the document calls for. -/
theorem Snapshot.layered_of_load {name : String} {output preset : Option String} {size : Nat}
    {d : Document} {s : Snapshot}
    (h : load name output preset (some ⟨size, .ok d⟩) = .ok s) :
    List.Forall₂ (fun entry c => (s.defaults.effective c).Layered entry (get d.keyed "defaults"))
      (d.itemsOf "clips") s.clips := by
  have hread := readFrom_of_load h
  obtain ⟨_, hlist, hitems⟩ := hread.clips
  obtain rfl := Reading.list_eq_ok hlist
  exact (Reading.forall₂_clipItems hitems).imp fun entry c hof => hof.1.layered hread.defaults

/-- A document with two clips of a film, whose defaults double the contrast and the volume.  The
first clip has the neutral values of its own, the second one holds a null for the contrast. -/
def doubledFilm : Document := .map [
  (.text "stackcut", .number 1),
  (.text "media", .list [.map [(.text "id", .text "film"), (.text "name", .text "film.mp4")]]),
  (.text "clips", .list [
    .map [(.text "id", .text "plain"), (.text "media", .text "film"),
      (.text "duration", .number 1000),
      (.text "video_filters", .map [(.text "contrast", .number 1)]),
      (.text "audio_filters", .map [(.text "volume", .number 1)])],
    .map [(.text "id", .text "doubled"), (.text "media", .text "film"),
      (.text "start", .number 1000), (.text "duration", .number 1000),
      (.text "video_filters", .map [(.text "contrast", .null)])]]),
  (.text "defaults", .map [(.text "video", .map [(.text "contrast", .number 2)]),
    (.text "audio", .map [(.text "volume", .number 2)])])]

theorem layered_of_doubledFilm :
    ∃ s, Snapshot.load "film.yaml" none none (some ⟨400, .ok doubledFilm⟩) = .ok s ∧
      s.clips.map (fun c => (c.id, (s.defaults.effective c).isNeutral)) =
        [("plain", true), ("doubled", false)] ∧
      List.Forall₂ (fun entry c => (s.defaults.effective c).Layered entry
        (get doubledFilm.keyed "defaults")) (doubledFilm.itemsOf "clips") s.clips := by
  have hload : (Snapshot.load "film.yaml" none none (some ⟨400, .ok doubledFilm⟩)).map
      (fun s => s.clips.map fun c => (c.id, (s.defaults.effective c).isNeutral)) =
        .ok [("plain", true), ("doubled", false)] := by
    decide +kernel
  obtain ⟨s, hs, hneutral⟩ := exists_of_map_eq_ok hload
  exact ⟨s, hs, hneutral, Snapshot.layered_of_load hs⟩

end Montage
