import Mathlib.Data.List.Chain
import Montage.Proofs.Timeline.Instant

/-!
Tilings: segments that follow each other without a gap from one place to another.  Every instant
between the two ends belongs to exactly one of them.
-/

namespace Montage

/-- The segments lead from the first place to the second, each of them with a
length and each beginning where the one before it ends. -/
def Tiles : Place → Place → List Segment → Prop
  | a, b, [] => a = b
  | a, b, s :: rest =>
      s.start.place? = some a ∧
        ∃ e, s.stop.place? = some e ∧ a < e ∧ Tiles e b rest

theorem Segment.holds_iff {s : Segment} {t : Instant} {a e : Place}
    (ha : s.start.place? = some a) (he : s.stop.place? = some e) :
    s.holds t = true ↔ a ≤ Place.ofInstant t ∧ Place.ofInstant t < e := by
  rw [Segment.holds, Bool.and_eq_true, Number.reachedAt_iff ha,
    Number.isAfter_iff he]

namespace Tiles

variable {a b : Place} {segments : List Segment} {t : Instant}

theorem le (h : Tiles a b segments) : a ≤ b := by
  induction segments generalizing a with
  | nil => exact le_of_eq h
  | cons s rest ih =>
      obtain ⟨-, e, -, hae, hrest⟩ := h
      exact hae.le.trans (ih hrest)

theorem eq_nil (h : Tiles a a segments) : segments = [] := by
  cases segments with
  | nil => rfl
  | cons s rest =>
      obtain ⟨-, e, -, hae, hrest⟩ := h
      exact absurd hae (not_lt.2 hrest.le)

theorem places_of_mem (h : Tiles a b segments) {s : Segment}
    (hs : s ∈ segments) :
    ∃ p e, s.start.place? = some p ∧ s.stop.place? = some e ∧
      a ≤ p ∧ p < e ∧ e ≤ b := by
  induction segments generalizing a with
  | nil => simp at hs
  | cons u rest ih =>
      obtain ⟨ha, e, he, hae, hrest⟩ := h
      rcases List.mem_cons.1 hs with rfl | hs
      · exact ⟨a, e, ha, he, le_rfl, hae, hrest.le⟩
      · obtain ⟨p, e', hp, he', hle, hlt, hend⟩ := ih hrest hs
        exact ⟨p, e', hp, he', hae.le.trans hle, hlt, hend⟩

/-- In a tiling a segment begins where the one before it ends. -/
theorem isChain (h : Tiles a b segments) :
    segments.IsChain fun s t => s.stop.place? = t.start.place? := by
  induction segments generalizing a with
  | nil => exact .nil
  | cons s rest ih =>
      obtain ⟨-, e, he, -, hrest⟩ := h
      refine (ih hrest).cons ?_
      intro t ht
      cases rest with
      | nil => simp at ht
      | cons u rest =>
          obtain rfl : u = t := Option.some.inj ht
          exact he.trans hrest.1.symm

/-- Only the way to a later place has segments. -/
theorem ne_nil_iff (h : Tiles a b segments) : segments ≠ [] ↔ a < b := by
  cases segments with
  | nil => simp [show a = b from h]
  | cons s rest =>
      obtain ⟨-, e, -, hae, hrest⟩ := h
      exact iff_of_true (List.cons_ne_nil s rest) (hae.trans_le hrest.le)

theorem place?_head (h : Tiles a b segments) {s : Segment}
    (hs : s ∈ segments.head?) : s.start.place? = some a := by
  cases segments with
  | nil => simp at hs
  | cons u rest =>
      obtain rfl : u = s := Option.some.inj hs
      exact h.1

/-- In a tiling a segment ends no later than those after it start. -/
theorem pairwise (h : Tiles a b segments) :
    segments.Pairwise fun s t => s.stop.le t.start = true := by
  induction segments generalizing a with
  | nil => exact .nil
  | cons s rest ih =>
      obtain ⟨-, e, he, -, hrest⟩ := h
      refine .cons ?_ (ih hrest)
      intro t ht
      obtain ⟨p, -, hp, -, hep, -⟩ := hrest.places_of_mem ht
      exact (Number.le_iff he hp).2 hep

theorem place?_getLast (h : Tiles a b segments) {s : Segment}
    (hs : s ∈ segments.getLast?) : s.stop.place? = some b := by
  induction segments generalizing a with
  | nil => simp at hs
  | cons t rest ih =>
      obtain ⟨-, e, he, -, hrest⟩ := h
      cases rest with
      | nil =>
          obtain rfl : t = s := Option.some.inj hs
          rw [he, show e = b from hrest]
      | cons u rest => exact ih hrest hs

/-- Only instants between the two ends belong to a segment. -/
theorem bounds_of_holds (h : Tiles a b segments) {s : Segment}
    (hs : s ∈ segments) (ht : s.holds t = true) :
    a ≤ Place.ofInstant t ∧ Place.ofInstant t < b := by
  obtain ⟨p, e, hp, he, hle, -, hend⟩ := h.places_of_mem hs
  rw [Segment.holds_iff hp he] at ht
  exact ⟨hle.trans ht.1, ht.2.trans_le hend⟩

theorem filter_holds_eq_nil (h : Tiles a b segments)
    (ht : Place.ofInstant t < a) : segments.filter (·.holds t) = [] := by
  rw [List.filter_eq_nil_iff]
  intro s hs hholds
  exact absurd ht (not_lt.2 (h.bounds_of_holds hs hholds).1)

/-- Exactly one segment holds an instant between the two ends. -/
theorem exists_filter_holds (h : Tiles a b segments)
    (hstart : a ≤ Place.ofInstant t) (hend : Place.ofInstant t < b) :
    ∃ s ∈ segments, s.holds t = true ∧ segments.filter (·.holds t) = [s] := by
  induction segments generalizing a with
  | nil =>
      rw [show a = b from h] at hstart
      exact absurd hend (not_lt.2 hstart)
  | cons s rest ih =>
      obtain ⟨ha, e, he, -, hrest⟩ := h
      rcases lt_or_ge (Place.ofInstant t) e with hlt | hge
      · have hs : s.holds t = true := (Segment.holds_iff ha he).2 ⟨hstart, hlt⟩
        refine ⟨s, List.mem_cons_self, hs, ?_⟩
        simp only [List.filter_cons, hs, ↓reduceIte,
          hrest.filter_holds_eq_nil hlt]
      · have hs : ¬s.holds t = true := by
          rw [Segment.holds_iff ha he]
          exact fun h => absurd h.2 (not_lt.2 hge)
        obtain ⟨u, hu, huholds, hfilter⟩ := ih hrest hge
        refine ⟨u, List.mem_cons_of_mem s hu, huholds, ?_⟩
        simp only [List.filter_cons, hs, hfilter]
        rfl

end Tiles

end Montage
