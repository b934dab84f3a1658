import Montage.Proofs.Snapshot.Reading
import Montage.Snapshot.File

/-!
The bounds of loaded clips.

What is read of a clip is refused on the wrong side of a bound.  So every number that is kept is on
the right side, unless it is a NaN, which is on no side at all.
-/

namespace Montage

/-- The bounds that hold for the numbers of a clip as they are stored: each comparison is true just
when the number is not a NaN. -/
structure Clip.WithinBounds (c : Clip) : Prop where
  start : Number.le 0 c.start = !c.start.isNaN
  duration : Number.lt 0 c.duration = !c.duration.isNaN
  trimStart : ∃ t, c.trimStart = some t ∧ Number.le 0 t = !t.isNaN
  speed : ∃ v, c.speed = some v ∧
    (Reading.slowest.le v && v.le Reading.fastest) = !v.isNaN

theorem Reading.CheckedClip.withinBounds {c : Clip} (h : CheckedClip c) : c.WithinBounds := by
  obtain ⟨t, ht, htrim⟩ := h.trimStart
  obtain ⟨v, hv, hslow, hfast⟩ := h.speed
  refine ⟨Number.atLeast_of_not_lt Number.place?_zero h.start,
    Number.above_of_not_le Number.place?_zero h.duration,
    ⟨t, ht, Number.atLeast_of_not_lt Number.place?_zero htrim⟩, v, hv, ?_⟩
  obtain ⟨p, hp⟩ := Number.exists_place (a := slowest) (by decide +kernel)
  obtain ⟨q, hq⟩ := Number.exists_place (a := fastest) (by decide +kernel)
  rw [Number.atLeast_of_not_lt hp hslow, Number.atMost_of_not_gt hq hfast, Bool.and_self]

namespace Snapshot

variable {name : String} {output preset : Option String} {file : Option SnapshotFile}
  {s : Snapshot}

/-- A snapshot that is loaded is read from the document of a file. -/
theorem ofDocument_of_load (h : load name output preset file = .ok s) :
    ∃ f d, file = some f ∧ f.content = .ok d ∧ ofDocument output preset d = .ok s := by
  cases file with
  | none => simp only [load, throw, throwThe, MonadExceptOf.throw, reduceCtorEq] at h
  | some f =>
      obtain ⟨-, h⟩ := unless_throw_eq_ok.1 h
      obtain ⟨d, hd, h⟩ := bind_eq_ok.1 h
      exact ⟨f, d, rfl, hd, h⟩

/-- The parts of a loaded snapshot are read from the entries of its document. -/
theorem readFrom_of_load {size : Nat} {d : Document}
    (h : load name output preset (some ⟨size, .ok d⟩) = .ok s) :
    s.ReadFrom output preset d.keyed := by
  obtain ⟨_, _, ⟨⟩, ⟨⟩, hd⟩ := ofDocument_of_load h
  obtain ⟨entries, hface, hread⟩ := readFrom_of_ofDocument hd
  rwa [Document.keyed_of_face hface]

/-- The numbers of loaded clips are within their bounds, a NaN apart. -/
theorem withinBounds_of_load (h : load name output preset file = .ok s) :
    ∀ c ∈ s.clips, c.WithinBounds := by
  obtain ⟨_, _, -, -, hread⟩ := ofDocument_of_load h
  obtain ⟨_, -, hparts⟩ := readFrom_of_ofDocument hread
  obtain ⟨_, -, hclips⟩ := hparts.clips
  intro c hc
  exact ((Reading.clipItems_spec hclips).2 c hc).withinBounds

end Snapshot

/-- A file with a film, played for some time at a quarter of its speed. -/
def slowFilm (duration : Number) : SnapshotFile where
  size := 200
  content := .ok (.map [
    (.text "stackcut", .number 1),
    (.text "media", .list [.map [(.text "id", .text "film"), (.text "name", .text "film.mp4")]]),
    (.text "clips", .list [.map [(.text "id", .text "first"), (.text "media", .text "film"),
      (.text "duration", .number duration), (.text "speed", .number Reading.slowest)]])])

theorem withinBounds_of_slowFilm :
    ∃ s, Snapshot.load "film.yaml" none none (some (slowFilm 1000)) = .ok s ∧
      s.clips.map Clip.id = ["first"] ∧ ∀ c ∈ s.clips, c.WithinBounds := by
  have hload : (Snapshot.load "film.yaml" none none (some (slowFilm 1000))).map
      (fun s => s.clips.map Clip.id) = .ok ["first"] := by
    decide +kernel
  obtain ⟨s, hs, hids⟩ := exists_of_map_eq_ok hload
  exact ⟨s, hs, hids, Snapshot.withinBounds_of_load hs⟩

/-- A duration that is not a number is loaded, though it is not greater than zero. -/
theorem load_slowFilm_nan :
    ∃ s, Snapshot.load "film.yaml" none none (some (slowFilm (.float .nan))) = .ok s ∧
      ∃ c ∈ s.clips, Number.lt 0 c.duration = false := by
  have hload : (Snapshot.load "film.yaml" none none (some (slowFilm (.float .nan)))).map
      (fun s => s.clips.any fun c => !Number.lt 0 c.duration) = .ok true := by
    decide +kernel
  obtain ⟨s, hs, hany⟩ := exists_of_map_eq_ok hload
  obtain ⟨c, hc, hnot⟩ := List.any_eq_true.1 hany
  exact ⟨s, hs, c, hc, by simpa using hnot⟩

end Montage
