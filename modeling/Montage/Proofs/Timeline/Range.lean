import Mathlib.Data.List.Chain
import Mathlib.Tactic.Order
import Montage.Proofs.Fault
import Montage.Proofs.Timeline.Tiling
import Montage.Timeline.Range

/-!
The part of a tiling inside the export range.

Cutting each segment to the range and leaving out what has no length gives a tiling again, from
the later of the two starts to the earlier of the two ends.
-/

namespace Montage

/-- Between two places lies an instant that is at or after the first one. -/
theorem exists_instant {p e : Place} (hp : Place.point 0 ≤ p) (hpe : p < e) :
    ∃ t : Instant, 0 ≤ t ∧ p ≤ Place.ofInstant t ∧ Place.ofInstant t < e := by
  cases p with
  | bottom => exact absurd hp (by decide)
  | top => exact absurd hpe (not_lt.2 (Place.le_top e))
  | point n =>
      have hn : (0 : ℚ) ≤ n := Int.cast_nonneg (Place.point_le_point.1 hp)
      refine ⟨n / unitsInOne, div_nonneg hn Number.unitsInOne_rat_pos.le, ?_⟩
      rw [Place.ofInstant_div]
      exact ⟨le_rfl, hpe⟩

namespace ExportRange

/-- The range reaches from one place to the other. -/
structure Spans (r : ExportRange) (p e : Place) : Prop where
  start_eq : r.start.place? = some p
  stop_eq : ∀ x ∈ r.stop, x.place? = some e
  open_eq : r.stop = none → e = .top

/-- The instants of a range. -/
def holds (r : ExportRange) (t : Instant) : Bool :=
  r.start.reachedAt t && r.stop.all (·.isAfter t)

variable {r : ExportRange} {p e : Place}

theorem Spans.holds_iff (h : r.Spans p e) {t : Instant} :
    r.holds t = true ↔ p ≤ Place.ofInstant t ∧ Place.ofInstant t < e := by
  rw [holds, Bool.and_eq_true, Number.reachedAt_iff h.start_eq]
  refine and_congr_right fun _ => ?_
  rcases hstop : r.stop with _ | x
  · simp only [h.open_eq hstop, Option.all_none, Place.ofInstant_lt_top]
  · exact Number.isAfter_iff (h.stop_eq x hstop)

/-- A finite value lies at a point. -/
theorem place?_of_finite? {d : Document} {v : Binary64}
    (h : finite? d = .ok (some v)) :
    ∃ n, (Number.float v).place? = some (.point n) := by
  have hfinite : v.isFinite = true := by
    cases d with
    | number x =>
        simp only [finite?, bind_eq_ok, pure, Except.pure, Except.ok.injEq] at h
        obtain ⟨y, -, h⟩ := h
        split at h
        · next hy => rwa [← Option.some.inj h]
        · simp only [reduceCtorEq] at h
    | text s =>
        have h' := Except.ok.inj h
        exact (Option.filter_eq_some_iff.1 h').2
    | _ => simp [finite?] at h
  rcases v with _ | _ | ⟨s, m, hm⟩
  · simp [Binary64.isFinite] at hfinite
  · simp [Binary64.isFinite] at hfinite
  · exact ⟨_, rfl⟩

/-- The start that a setting gives: none before zero. -/
def startOf : Option Binary64 → Number
  | some v => (Number.float .zero).max (.float v)
  | none => .float .zero

/-- A start is a point no less than zero. -/
theorem startOf_spec {x : Option Binary64}
    (hx : ∀ v ∈ x, ∃ n, (Number.float v).place? = some (.point n)) :
    ∃ y n, startOf x = .float y ∧
      (Number.float y).place? = some (.point n) ∧ 0 ≤ n := by
  have hzero : (Number.float Binary64.zero).place? = some (.point 0) := rfl
  rcases x with _ | v
  · exact ⟨.zero, 0, rfl, hzero, le_rfl⟩
  · obtain ⟨n, hn⟩ := hx v rfl
    simp only [startOf, Number.max]
    split
    · next hlt =>
        rw [Number.lt_iff hzero hn, Place.point_lt_point] at hlt
        exact ⟨v, n, rfl, hn, hlt.le⟩
    · exact ⟨.zero, 0, rfl, hzero, le_rfl⟩

/-- A range that settings may give: its ends are binary64 values, it does not
begin before zero, and it has a length. -/
structure IsSet (r : ExportRange) (p e : Place) : Prop extends r.Spans p e where
  start_float : ∃ x, r.start = .float x
  stop_float : ∀ x ∈ r.stop, ∃ y, x = .float y
  nonneg : Place.point 0 ≤ p
  lt : p < e

theorem ofSettings_eq {start stop : Document} {x y : Option Binary64}
    (hx : finite? start = .ok x) (hy : finite? stop = .ok y) :
    ofSettings start stop = .ok (match y with
      | none => some ⟨startOf x, none⟩
      | some v =>
          if (startOf (some v)).le (startOf x) then none
          else some ⟨startOf x, some (startOf (some v))⟩) := by
  simp only [ofSettings, hx, hy, bind, Except.bind]
  cases x <;> cases y <;> rfl

theorem ofSettings_spec {start stop : Document}
    (h : ofSettings start stop = .ok (some r)) : ∃ p e, r.IsSet p e := by
  have hread := h
  simp only [ofSettings, bind_eq_ok] at hread
  obtain ⟨x, hx, y, hy, -⟩ := hread
  obtain ⟨first, n, hfirst, hn, hn0⟩ := startOf_spec (x := x)
    fun v hv => place?_of_finite? (hv ▸ hx)
  have hzero : Place.point 0 ≤ .point n := Place.point_le_point.2 hn0
  rw [ofSettings_eq hx hy, Except.ok.injEq, hfirst] at h
  rcases y with _ | v
  · obtain rfl := Option.some.inj h
    exact ⟨.point n, .top, ⟨hn, by simp, fun _ => rfl⟩, ⟨first, rfl⟩, by simp,
      hzero, rfl⟩
  · obtain ⟨last, m, hlast, hm, -⟩ := startOf_spec (x := some v)
      fun v' hv => place?_of_finite? (hv ▸ hy)
    simp only [hlast] at h
    split at h
    · simp only [reduceCtorEq] at h
    · next hlt =>
        rw [Number.le_iff hm hn, not_le] at hlt
        obtain rfl := Option.some.inj h
        exact ⟨.point n, .point m, ⟨hn, by simpa using hm, by simp⟩,
          ⟨first, rfl⟩, by simp, hzero, hlt⟩

theorem cut_start (h : r.Spans p e) {s : Segment} {a : Place}
    (ha : s.start.place? = some a) :
    (r.cut s).start.place? = some (max a p) :=
  Number.place?_max ha h.start_eq

theorem cut_stop (h : r.Spans p e) {s : Segment} {b : Place}
    (hb : s.stop.place? = some b) :
    (r.cut s).stop.place? = some (min b e) := by
  rcases hstop : r.stop with _ | x
  · rw [h.open_eq hstop, min_eq_left (Place.le_top b)]
    simp only [cut, hstop, hb]
  · simp only [cut, hstop]
    exact Number.place?_min hb (h.stop_eq x hstop)

theorem cut_start_eq (h : r.Spans p e) {s : Segment} {a : Place}
    (ha : s.start.place? = some a) (hpa : p ≤ a) :
    (r.cut s).start = s.start := by
  have hlt : ¬s.start.lt r.start = true := by
    rw [Number.lt_iff ha h.start_eq]
    exact not_lt.2 hpa
  simp only [cut, Number.max, hlt, Bool.false_eq_true, ↓reduceIte]

theorem cut_stop_eq (h : r.Spans p e) {s : Segment} {b : Place}
    (hb : s.stop.place? = some b) (hbe : b ≤ e) : (r.cut s).stop = s.stop := by
  rcases hstop : r.stop with _ | x
  · simp only [cut, hstop]
  · have hlt : ¬x.lt s.stop = true := by
      rw [Number.lt_iff (h.stop_eq x hstop) hb]
      exact not_lt.2 hbe
    simp only [cut, hstop, Number.min, hlt, Bool.false_eq_true, ↓reduceIte]

theorem run_cut (r : ExportRange) (s : Segment) (channel : Channel) :
    (r.cut s).run channel = s.run channel := by
  cases channel <;> rfl

/-- What is left of a segment holds no new instants. -/
theorem holds_of_cut (h : r.Spans p e) {s : Segment} {a b : Place}
    (ha : s.start.place? = some a) (hb : s.stop.place? = some b) {t : Instant}
    (ht : (r.cut s).holds t = true) : s.holds t = true := by
  rw [Segment.holds_iff (cut_start h ha) (cut_stop h hb)] at ht
  rw [Segment.holds_iff ha hb]
  exact ⟨(le_max_left a p).trans ht.1, ht.2.trans_le (min_le_left b e)⟩

theorem clip_cons (r : ExportRange) (s : Segment) (rest : List Segment) :
    r.clip (s :: rest) =
      if (r.cut s).stop.le (r.cut s).start then r.clip rest
      else r.cut s :: r.clip rest := by
  simp only [clip, List.map_cons, List.filter_cons]
  cases (r.cut s).stop.le (r.cut s).start <;> rfl

/-- The parts of a tiling inside the range are a tiling. -/
theorem clip_tiles (h : r.Spans p e) {segments : List Segment} {a b : Place}
    (htiles : Tiles a b segments) :
    Tiles (max a p) (max (max a p) (min b e)) (r.clip segments) := by
  induction segments generalizing a with
  | nil =>
      obtain rfl : a = b := htiles
      have hle : min a e ≤ max a p := (min_le_left a e).trans (le_max_left a p)
      exact (max_eq_left hle).symm
  | cons s rest ih =>
      obtain ⟨ha, q, hq, haq, hrest⟩ := htiles
      have hqb := hrest.le
      have hlater := ih hrest
      have hstart := cut_start h ha
      have hstop := cut_stop h hq
      rw [clip_cons]
      split
      · next hle =>
          rw [Number.le_iff hstop hstart] at hle
          rcases le_or_gt q p with hqp | hpq
          · rw [max_eq_right hqp] at hlater
            rwa [max_eq_right (haq.le.trans hqp)]
          · -- the range is over before this segment is
            have heq : e < q := by order
            have hend : min b e = e := min_eq_right (heq.le.trans hqb)
            rw [hend] at hlater ⊢
            rw [max_eq_left hpq.le, max_eq_left heq.le] at hlater
            rw [hlater.eq_nil]
            exact (max_eq_left (by order)).symm
      · next hlt =>
          rw [Number.le_iff hstop hstart, not_le] at hlt
          have hpq : p < q := by order
          rw [max_eq_left hpq.le] at hlater
          rcases lt_or_ge q e with hqe | heq
          · rw [min_eq_left hqe.le] at hstop hlt
            rw [max_eq_right (le_min hqb hqe.le)] at hlater
            rw [max_eq_right (hlt.le.trans (le_min hqb hqe.le))]
            exact ⟨hstart, q, hstop, hlt, hlater⟩
          · have hend : min b e = e := min_eq_right (heq.trans hqb)
            rw [hend, max_eq_left heq] at hlater
            rw [min_eq_right heq] at hstop hlt
            rw [hend, max_eq_right hlt.le, hlater.eq_nil]
            exact ⟨hstart, e, hstop, hlt, rfl⟩

/-- What holds of neighbours holds of what is left of them, when cutting keeps
it at the seams inside the range. -/
theorem clip_isChain_of_cut (h : r.Spans p e) {R : Segment → Segment → Prop}
    {segments : List Segment} {a b : Place} (htiles : Tiles a b segments)
    (hcut : ∀ s t q, s.stop.place? = some q → t.start.place? = some q →
      p ≤ q → q ≤ e → R s t → R (r.cut s) (r.cut t))
    (hchain : segments.IsChain R) : (r.clip segments).IsChain R := by
  induction segments generalizing a with
  | nil => exact .nil
  | cons s rest ih =>
      obtain ⟨ha, q, hq, haq, hrest⟩ := htiles
      have hlater := ih hrest hchain.tail
      have hstart := cut_start h ha
      have hstop := cut_stop h hq
      rw [clip_cons]
      split
      · exact hlater
      · next hlt =>
          rw [Number.le_iff hstop hstart, not_le] at hlt
          refine hlater.cons ?_
          intro u hu
          cases rest with
          | nil => simp [clip] at hu
          | cons t rest =>
              rcases lt_or_ge q e with hqe | heq
              · -- the next segment is kept, and the seam before it too
                obtain ⟨ht, q', hq', hqq', -⟩ := hrest
                have hpq : p < q := by order
                have hkept : ¬(r.cut t).stop.le (r.cut t).start = true := by
                  rw [Number.le_iff (cut_stop h hq') (cut_start h ht), not_le,
                    max_eq_left hpq.le]
                  exact lt_min hqq' hqe
                rw [clip_cons, if_neg hkept] at hu
                obtain rfl : r.cut t = u := Option.some.inj hu
                exact hcut s t q hq ht hpq.le hqe.le (hchain.rel_head? (by simp))
              · have hnil := clip_tiles h hrest
                rw [max_eq_left (by order), max_eq_left (by order)] at hnil
                rw [hnil.eq_nil] at hu
                simp at hu

/-- Seams inside the range stay as they are. -/
theorem clip_isChain (h : r.Spans p e) {M : Number → Number → Prop}
    {segments : List Segment} {a b : Place} (htiles : Tiles a b segments)
    (hchain : segments.IsChain fun s t => M s.stop t.start) :
    (r.clip segments).IsChain fun s t => M s.stop t.start := by
  refine clip_isChain_of_cut h htiles ?_ hchain
  intro s t q hq ht hpq hqe hst
  rw [cut_stop_eq h hq hqe, cut_start_eq h ht hpq]
  exact hst

end ExportRange

end Montage
