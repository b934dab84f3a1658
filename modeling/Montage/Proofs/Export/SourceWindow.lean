import Montage.Proofs.Export.Length
import Montage.Proofs.Export.Untouched
import Montage.Proofs.Number.Exact
import Montage.Proofs.Timeline.Halving

/-!
The source window of a planned segment.

A segment plays its source from its first clip alone, as one window.  Where nothing is rounded, the
window runs between the source times at the two ends of the segment; and nothing is rounded where
no binary64 value is met, or no time lies beyond `2 ^ 53`.
-/

namespace Montage

/-- The part of its source that a clip plays in a segment. -/
def Segment.window (g : Segment) (c : Clip) : Except Fault Window := do
  Window.ofSlice c g.start (← g.duration)

namespace Window

/-- A window that runs exactly between the source times at the ends of a segment. -/
structure Unrounded (w : Window) (c : Clip) (g : Segment) : Prop where
  speed_eq : w.speed = c.playSpeed
  first : (if c.reversed then w.stop else w.start).Is (c.sourceAt g.start.value)
  last : (if c.reversed then w.start else w.stop).Is (c.sourceAt g.stop.value)

/-- Two windows of the same numbers, of whichever kind these are. -/
structure Same (w w' : Window) : Prop where
  start_eq : w.start.eq w'.start = true
  stop_eq : w.stop.eq w'.stop = true
  speed_eq : w.speed.eq w'.speed = true

/-- Clips that play the same source at the ends of a segment have the same window there. -/
theorem Unrounded.same {w w' : Window} {c c' : Clip} {g g' : Segment} (h : w.Unrounded c g)
    (h' : w'.Unrounded c' g') (hreversed : c.reversed = c'.reversed)
    (hspeed : c.playSpeed.eq c'.playSpeed = true)
    (hstart : c.sourceAt g.start.value = c'.sourceAt g'.start.value)
    (hstop : c.sourceAt g.stop.value = c'.sourceAt g'.stop.value) : w.Same w' := by
  have hfirst := (hstart ▸ h.first).eq h'.first
  have hlast := (hstop ▸ h.last).eq h'.last
  rw [hreversed] at hfirst hlast
  rw [← h.speed_eq, ← h'.speed_eq] at hspeed
  cases hrev : c'.reversed
  · rw [hrev] at hfirst hlast
    exact ⟨hfirst, hlast, hspeed⟩
  · rw [hrev] at hfirst hlast
    exact ⟨hlast, hfirst, hspeed⟩

end Window

namespace ExactArithmetic

variable {Holds : Int → Number → Prop} {fits : Int → Prop}

/-- A number that is not below zero is left as it is. -/
theorem max_zero (h : ExactArithmetic Holds fits) {n : Int} {a : Number} (ha : Holds n a)
    (hn : 0 ≤ n) : Holds n (Number.max 0 a) := by
  rw [Number.max]
  split
  · exact ha
  · next hlt =>
      rw [Bool.not_eq_true] at hlt
      have hzero : n ≤ 0 := by
        by_contra hpos
        rw [Number.lt_iff Number.place?_zero (Number.is_whole_iff.1 (h.is ha))
          |>.2 (Place.point_lt_point.2 (mul_pos (not_le.1 hpos) Number.units_pos))] at hlt
        exact Bool.noConfusion hlt
      rw [le_antisymm hzero hn]
      exact h.int 0

variable {c : Clip} {g : Segment} {start length trim speed m n : Int}

/-- What is computed for every window: how long the segment is, how far into the clip it begins, and
how much of the source it plays. -/
theorem exists_lengths (h : ExactArithmetic Holds fits) (hm : Holds m g.start)
    (hn : Holds n g.stop) (hstart : 0 ≤ start) (hle : start ≤ m) (hlt : m < n) (hspeed : 1 ≤ speed)
    (hfits : fits n) (hplayed : fits ((n - m) * speed)) :
    (∃ duration, g.stop.sub g.start = .ok duration ∧ Holds (n - m) duration ∧
      ∃ lasted, duration.mul (.int speed) = .ok lasted ∧ Holds ((n - m) * speed) lasted) ∧
      ∃ offset, g.start.sub (.int start) = .ok offset ∧ Holds (m - start) offset := by
  have hspeed' : speed ≤ (n - m) * speed := le_mul_of_one_le_left (by omega) (by omega)
  have hshort : ∀ {k}, 0 ≤ k → k ≤ n → fits k := fun h0 hk => h.between h0 hk hfits
  obtain ⟨duration, hduration, hdurationIs⟩ :=
    h.sub hn hm hfits (hshort (by omega) hlt.le) (hshort (by omega) (by omega))
  exact ⟨⟨duration, hduration, hdurationIs, h.mul hdurationIs (h.int speed)
      (hshort (by omega) (by omega)) (h.between (by omega) hspeed' hplayed) hplayed⟩,
    h.sub hm (h.int start) (hshort (by omega) hlt.le) (hshort hstart (by omega))
      (hshort (by omega) (by omega))⟩

/-- The window of a clip that is not reversed. -/
theorem exists_window_forward (h : ExactArithmetic Holds fits)
    (hc : c.Counts start length trim speed) (hforward : c.reversed = false)
    (hm : Holds m g.start) (hn : Holds n g.stop) (hstart : 0 ≤ start) (hle : start ≤ m)
    (hlt : m < n) (htrim : 0 ≤ trim) (hspeed : 1 ≤ speed) (hfits : fits n)
    (hsource : fits (trim + (n - start) * speed)) :
    ∃ w, g.window c = .ok w ∧ w.Unrounded c g := by
  have hrun : 0 ≤ (m - start) * speed := mul_nonneg (by omega) (by omega)
  have hlength : n - m ≤ (n - m) * speed := le_mul_of_one_le_right (by omega) hspeed
  have hlength' : speed ≤ (n - m) * speed := le_mul_of_one_le_left (by omega) (by omega)
  have hsum : (n - start) * speed = (m - start) * speed + (n - m) * speed := by ring
  rw [hsum] at hsource
  have hshort : ∀ {k}, 0 ≤ k → k ≤ n → fits k := fun h0 hk => h.between h0 hk hfits
  have hearly : ∀ {k}, 0 ≤ k → k ≤ trim + ((m - start) * speed + (n - m) * speed) → fits k :=
    fun h0 hk => h.between h0 hk hsource
  obtain ⟨⟨duration, hduration, -, lasted, hlasted, hlastedIs⟩, offset, hoffset, hoffsetIs⟩ :=
    h.exists_lengths hm hn hstart hle hlt hspeed hfits (hearly (by omega) (by omega))
  obtain ⟨run, hrunEq, hrunIs⟩ := h.mul hoffsetIs (h.int speed) (hshort (by omega) (by omega))
    (hearly (by omega) (by omega)) (hearly hrun (by omega))
  obtain ⟨first, hfirst, hfirstIs⟩ := h.add (h.int trim) hrunIs (hearly htrim (by omega))
    (hearly hrun (by omega)) (hearly (by omega) (by omega))
  obtain ⟨last, hlast, hlastIs⟩ := h.add hfirstIs hlastedIs (hearly (by omega) (by omega))
    (hearly (by omega) (by omega)) (hearly (by omega) (by omega))
  refine ⟨⟨first, last, .int speed⟩, ?_, hc.speed_eq.symm, ?_, ?_⟩
  · simp only [Segment.window, Segment.duration, hduration, Window.ofSlice, hc.start_eq,
      hc.speed_eq, hc.trim_eq, hforward, hoffset, hlasted, hrunEq, hfirst, hlast, bind, Except.bind,
      pure, Except.pure, Bool.false_eq_true, ↓reduceIte]
  · have hvalue := h.is hfirstIs
    rw [hforward, if_neg Bool.false_ne_true, hc.sourceAt_forward hforward, (h.is hm).value_eq]
    push_cast at hvalue
    exact hvalue
  · have hvalue := h.is hlastIs
    rw [add_assoc, ← hsum] at hvalue
    rw [hforward, if_neg Bool.false_ne_true, hc.sourceAt_forward hforward, (h.is hn).value_eq]
    push_cast at hvalue
    exact hvalue

/-- The window of a reversed clip, which plays its source from the end. -/
theorem exists_window_reversed (h : ExactArithmetic Holds fits)
    (hc : c.Counts start length trim speed) (hreversed : c.reversed = true)
    (hm : Holds m g.start) (hn : Holds n g.stop) (hstart : 0 ≤ start) (hle : start ≤ m)
    (hlt : m < n) (hstop : n ≤ start + length) (htrim : 0 ≤ trim) (hspeed : 1 ≤ speed)
    (hfits : fits n) (hsource : fits (trim + length * speed)) :
    ∃ w, g.window c = .ok w ∧ w.Unrounded c g := by
  have hbefore : 0 ≤ (m - start) * speed := mul_nonneg (by omega) (by omega)
  have hlength : n - m ≤ (n - m) * speed := le_mul_of_one_le_right (by omega) hspeed
  have hlength' : speed ≤ (n - m) * speed := le_mul_of_one_le_left (by omega) (by omega)
  have hafter : 0 ≤ (start + length - n) * speed := mul_nonneg (by omega) (by omega)
  have hplayed : m - start + (n - m) ≤ (m - start + (n - m)) * speed :=
    le_mul_of_one_le_right (by omega) hspeed
  have hplayed' : (m - start + (n - m)) * speed = (m - start) * speed + (n - m) * speed := by ring
  have hall : length * speed =
      (m - start) * speed + (n - m) * speed + (start + length - n) * speed := by ring
  have hshort : ∀ {k}, 0 ≤ k → k ≤ n → fits k := fun h0 hk => h.between h0 hk hfits
  have hearly : ∀ {k}, 0 ≤ k → k ≤ trim + length * speed → fits k :=
    fun h0 hk => h.between h0 hk hsource
  obtain ⟨⟨duration, hduration, hdurationIs, lasted, hlasted, hlastedIs⟩, offset, hoffset,
    hoffsetIs⟩ := h.exists_lengths hm hn hstart hle hlt hspeed hfits (hearly (by omega) (by omega))
  obtain ⟨played, hplayedEq, hplayedIs⟩ := h.add hoffsetIs hdurationIs
    (hshort (by omega) (by omega)) (hshort (by omega) (by omega)) (hshort (by omega) (by omega))
  obtain ⟨run, hrun, hrunIs⟩ := h.mul hplayedIs (h.int speed) (hshort (by omega) (by omega))
    (hearly (by omega) (by omega)) (hearly (by omega) (by omega))
  obtain ⟨back, hback, hbackIs⟩ := h.sub (h.int (length * speed)) hrunIs
    (hearly (by omega) (by omega)) (hearly (by omega) (by omega)) (hearly (by omega) (by omega))
  obtain ⟨first, hfirst, hfirstIs⟩ := h.add (h.int trim) (h.max_zero hbackIs (by omega))
    (hearly htrim (by omega)) (hearly (by omega) (by omega)) (hearly (by omega) (by omega))
  obtain ⟨last, hlast, hlastIs⟩ := h.add hfirstIs hlastedIs (hearly (by omega) (by omega))
    (hearly (by omega) (by omega)) (hearly (by omega) (by omega))
  have hwhole : (Number.int length).mul (.int speed) = .ok (.int (length * speed)) := rfl
  refine ⟨⟨first, last, .int speed⟩, ?_, hc.speed_eq.symm, ?_, ?_⟩
  · simp only [Segment.window, Segment.duration, hduration, Window.ofSlice, hc.start_eq,
      hc.duration_eq, hc.speed_eq, hc.trim_eq, hreversed, hoffset, hlasted, hwhole, hplayedEq,
      hrun, hback, hfirst, hlast, bind, Except.bind, pure, Except.pure, ↓reduceIte]
  · have hvalue := h.is hlastIs
    have hend : trim + (length * speed - (m - start + (n - m)) * speed) + (n - m) * speed =
        trim + (length - (m - start)) * speed := by ring
    rw [hend] at hvalue
    rw [hreversed, if_pos rfl, hc.sourceAt_reversed hreversed, (h.is hm).value_eq]
    push_cast at hvalue
    exact hvalue
  · have hvalue := h.is hfirstIs
    have hend : trim + (length * speed - (m - start + (n - m)) * speed) =
        trim + (length - (n - start)) * speed := by ring
    rw [hend] at hvalue
    rw [hreversed, if_pos rfl, hc.sourceAt_reversed hreversed, (h.is hn).value_eq]
    push_cast at hvalue
    exact hvalue

end ExactArithmetic

/-- On a channel, a segment runs from one clip to another: it begins while the first one plays, ends
while the last one does, and in between the source goes on along one line. -/
structure Reaches (g : Segment) (channel : Channel) (first last : Clip) : Prop where
  tail_eq : g.tail? channel = some last
  starts : first.start.le g.start = true
  stops : ∃ e, last.stop = .ok e ∧ g.stop.le e = true
  goes_on : first = last ∨ first.reversed = false ∧ last.reversed = false ∧
    ∀ t, first.sourceAt t = last.sourceAt t

/-- What is known of the clips in which a segment begins and ends. -/
structure RunsThrough (clips : List Clip) (g : Segment) : Prop where
  within : g.Within clips
  reaches : ∀ channel first, g.winner? channel = some first → ∃ last, Reaches g channel first last

section Runs

variable {sources : Sources} {clips : List Clip} {rule : FilterRule} {s t : Segment}
  (hwhole : ∀ c ∈ clips, c.Whole)
include hwhole

theorem Shows.clip_spans_of_whole (h : Shows sources clips s) {channel : Channel} {c : Clip}
    (hc : c ∈ s.run channel) :
    c.start.le s.start = true ∧ ∃ e, c.stop = .ok e ∧ s.stop.le e = true := by
  obtain ⟨start, length, trim, speed, hcounts⟩ :=
    (hwhole c (h.carries.within channel c hc)).exists_counts
  obtain ⟨hstarts, hstops⟩ := h.clip_spans hc hcounts.start_eq hcounts.stop_eq
  exact ⟨hcounts.start_eq ▸ hstarts, _, hcounts.stop_eq, hstops⟩

theorem Shows.runsThrough (h : Shows sources clips s) : RunsThrough clips s := by
  refine ⟨h.carries.within, ?_⟩
  intro channel c hc
  obtain ⟨hstarts, hstops⟩ := h.clip_spans_of_whole hwhole (List.mem_of_head? hc)
  exact ⟨c, (Segment.Single.tail?_eq h.single channel).trans hc, hstarts, hstops, Or.inl rfl⟩

/-- A joint adds the clip that goes on where the run has ended. -/
theorem RunsThrough.joined (hclips : Coherent clips) (hs : RunsThrough clips s)
    (ht : Shows sources clips t) (hseam : IsSeam s.stop t.start)
    (hj : joint rule s t = some .joined) : RunsThrough clips (s.joined t) := by
  refine ⟨hs.within.joined ht.carries.within, ?_⟩
  intro channel first hfirst
  rw [winner?_joined hj] at hfirst
  obtain ⟨last, htail, hstarts, -, hgoes⟩ := hs.reaches channel first hfirst
  obtain ⟨hnone, -⟩ | ⟨p, n, hp, hn, hcontinues⟩ := (joint_eq_joined hj).2 channel
  · rw [htail] at hnone
    simp only [reduceCtorEq] at hnone
  · obtain rfl : last = p := Option.some.inj (htail.symm.trans hp)
    have hlastmem : last ∈ clips := hs.within channel last (List.mem_of_getLast? htail)
    have hnmem : n ∈ clips := ht.carries.within channel n (List.mem_of_head? hn)
    refine ⟨n, ?_, hstarts, (ht.clip_spans_of_whole hwhole (List.mem_of_head? hn)).2, ?_⟩
    · rw [tail?_joined hclips hs.within ht.carries.within hj,
        Segment.Single.tail?_eq ht.single, hn]
    · rcases hcontinues with hid | ⟨hseamless, -⟩
      · rw [← hclips last hlastmem n hnmem hid]
        exact hgoes
      · obtain ⟨-, k, hk⟩ := hseam
        rw [hk] at hseamless
        obtain ⟨-, -, hlast, hnext, -⟩ := seamless_cases hseamless
        have hsource := sourceAt_eq_of_seamless (hwhole last hlastmem) (hwhole n hnmem) hseamless
        rcases hgoes with rfl | ⟨hforward, -, hsame⟩
        · exact Or.inr ⟨hlast, hnext, hsource⟩
        · exact Or.inr ⟨hforward, hnext, fun u => (hsame u).trans (hsource u)⟩

theorem runsThrough_of_joinAll (hclips : Coherent clips) {segments : List Segment} {r : Joined}
    (hshows : ∀ u ∈ segments, Shows sources clips u)
    (hchain : segments.IsChain fun u v => IsSeam u.stop v.start)
    (h : joinAll rule segments = some r) : ∀ g ∈ r.segments, RunsThrough clips g :=
  joinAll_forall (fun _ hu => hu.runsThrough hwhole)
    (fun _ _ hu hv hseam hj => hu.joined hwhole hclips hv hseam hj) hshows hchain h

end Runs

/-- All that plays in the segment has a window there, and it is not rounded. -/
def Segment.Unrounded (g : Segment) : Prop :=
  ∀ channel c, g.winner? channel = some c → ∃ w, g.window c = .ok w ∧ w.Unrounded c g

/-- The times at which a clip ends, on the timeline and in its source, fit. -/
def Clip.FitsIn (fits : Int → Prop) (c : Clip) : Prop :=
  ∃ start length trim speed, c.Counts start length trim speed ∧ 0 ≤ trim ∧
    fits (start + length) ∧ fits (trim + length * speed)

/-- Where the bounds of a segment and the times of the clips fit, its windows are not rounded. -/
theorem RunsThrough.unrounded {Holds : Int → Number → Prop} {fits : Int → Prop}
    (h : ExactArithmetic Holds fits) {clips : List Clip} {g : Segment}
    (hg : RunsThrough clips g) (hwhole : ∀ c ∈ clips, c.Whole)
    (hfits : ∀ c ∈ clips, c.FitsIn fits) {m n : Int} (hm : Holds m g.start) (hn : Holds n g.stop)
    (hlt : m < n) : g.Unrounded := by
  intro channel first hfirst
  obtain ⟨last, htail, hstarts, ⟨e, he, hstops⟩, hgoes⟩ := hg.reaches channel first hfirst
  have hfirstmem : first ∈ clips := hg.within channel first (List.mem_of_head? hfirst)
  have hlastmem : last ∈ clips := hg.within channel last (List.mem_of_getLast? htail)
  obtain ⟨a, d, x, v, hcounts, hx, -, hsource⟩ := hfits first hfirstmem
  obtain ⟨b, l, y, w, hcounts', hy, hend, hsource'⟩ := hfits last hlastmem
  obtain ⟨a', ha, ha0⟩ := (hwhole first hfirstmem).start
  obtain ⟨v', hv, hv1⟩ := (hwhole first hfirstmem).speed
  obtain ⟨w', hw, hw1⟩ := (hwhole last hlastmem).speed
  obtain rfl : a = a' := Number.int.inj (hcounts.start_eq.symm.trans ha)
  obtain rfl : v = v' := Number.int.inj (hcounts.speed_eq.symm.trans hv)
  obtain rfl : w = w' := Number.int.inj (hcounts'.speed_eq.symm.trans hw)
  obtain rfl : e = .int (b + l) := Except.ok.inj (he.symm.trans hcounts'.stop_eq)
  rw [hcounts.start_eq, Number.le_iff_of_is (Number.is_int a) (h.is hm)] at hstarts
  rw [Number.le_iff_of_is (h.is hn) (Number.is_int (b + l))] at hstops
  have hnfits : fits n := h.between (by omega) hstops hend
  rcases hreversed : first.reversed with _ | _
  · refine h.exists_window_forward hcounts hreversed hm hn ha0 hstarts hlt hx hv1 hnfits ?_
    have hnonneg : 0 ≤ (n - a) * v := mul_nonneg (by omega) (by omega)
    have hsame : x + (n - a) * v = y + (n - b) * w := by
      rcases hgoes with rfl | ⟨-, hreversed', hsame⟩
      · obtain ⟨rfl, -, rfl, rfl⟩ := hcounts.unique hcounts'
        rfl
      · have hat := hsame n
        rw [hcounts.sourceAt_forward hreversed, hcounts'.sourceAt_forward hreversed'] at hat
        exact_mod_cast hat
    have hle : (n - b) * w ≤ l * w := mul_le_mul_of_nonneg_right (by omega) (by omega)
    exact h.between (by omega) (by omega) hsource'
  · obtain rfl : first = last := by
      rcases hgoes with hsame | ⟨hforward, -⟩
      · exact hsame
      · rw [hreversed] at hforward
        exact Bool.noConfusion hforward
    obtain ⟨rfl, rfl, -, -⟩ := hcounts.unique hcounts'
    exact h.exists_window_reversed hcounts hreversed hm hn ha0 hstarts hlt hstops hx hv1 hnfits
      hsource

/-- A setting of the range that is not set, or set to a whole number that binary64 holds. -/
def Document.IsWholeBound (d : Document) : Prop :=
  finite? d = .ok none ∨ ∃ n : Int, (Number.int n).IsExact ∧ d = .number (.int n)

theorem Document.IsWholeBound.exists_finite? {d : Document} (h : d.IsWholeBound) :
    ∃ v, finite? d = .ok v ∧ ∀ x ∈ v, ∃ n : Int, (Number.float x).Is n := by
  rcases h with hnone | ⟨n, ⟨x, hx, hplace⟩, rfl⟩
  · exact ⟨none, hnone, fun x hx => absurd hx (Option.not_mem_none x)⟩
  · refine ⟨if x.isFinite then some x else none, ?_, ?_⟩
    · simp only [finite?, bind_eq_ok]
      exact ⟨x, hx, rfl⟩
    · intro y hy
      rw [Option.mem_ite_none_right, Option.mem_some] at hy
      obtain ⟨-, rfl⟩ := hy
      exact ⟨n, Number.is_whole_iff.2 (hplace.trans (Number.place?_int n))⟩

namespace ExportRange

theorem is_startOf {v : Option Binary64} (hv : ∀ x ∈ v, ∃ n : Int, (Number.float x).Is n) :
    ∃ n : Int, (startOf v).Is n := by
  have hplace : (Number.float Binary64.zero).place? = some (.point 0) := rfl
  have hzero : (Number.float .zero).Is (0 : Int) := ⟨0, hplace, by rw [Int.cast_zero, zero_div]⟩
  rcases v with _ | x
  · exact ⟨0, hzero⟩
  · rw [startOf, Number.max]
    split
    · exact hv x rfl
    · exact ⟨0, hzero⟩

/-- A range that is set to whole numbers lies between whole numbers. -/
theorem is_of_isWholeBound {start stop : Document} {range : ExportRange}
    (hstart : start.IsWholeBound) (hstop : stop.IsWholeBound)
    (h : ofSettings start stop = .ok (some range)) :
    (∃ n : Int, range.start.Is n) ∧ ∀ x ∈ range.stop, ∃ n : Int, x.Is n := by
  obtain ⟨v, hv, hfirst⟩ := hstart.exists_finite?
  obtain ⟨w, hw, hlast⟩ := hstop.exists_finite?
  obtain ⟨m, hm⟩ := is_startOf hfirst
  obtain ⟨n, hn⟩ := is_startOf hlast
  rw [ofSettings_eq hv hw, Except.ok.injEq] at h
  rcases w with _ | x
  · obtain rfl := Option.some.inj h
    exact ⟨⟨m, hm⟩, fun x hx => absurd hx (Option.not_mem_none x)⟩
  · simp only at h
    split at h
    · simp only [reduceCtorEq] at h
    · obtain rfl := Option.some.inj h
      refine ⟨⟨m, hm⟩, ?_⟩
      rintro y ⟨⟩
      exact ⟨n, hn⟩

end ExportRange

namespace Snapshot

/-- The times of an export are computed without rounding, as the range is not set and only whole
numbers are met, or as no time of a clip is beyond `2 ^ 53`. -/
inductive TimesFit (s : Snapshot) : Prop
  | unset (range_eq : s.range? = .ok (some ⟨.float .zero, none⟩))
      (fits : ∀ c ∈ s.clips, c.FitsIn fun _ => True)
  | small (start : s.settings.rangeStart.IsWholeBound) (stop : s.settings.rangeEnd.IsWholeBound)
      (fits : ∀ c ∈ s.clips, c.FitsIn (·.natAbs ≤ 2 ^ 53))

variable {s : Snapshot} {infos : Option (List (String × MediaInfo))} {range : ExportRange}
  {segments : List Segment} {a b : Place} {rule : FilterRule} {joined : Joined}
  {Holds : Int → Number → Prop} {fits : Int → Prop}

/-- A planned segment starts and ends where some of the segments do that it is joined of. -/
theorem Prepared.bounds_of_joinAll (h : s.Prepared infos range segments a b)
    (hjoins : joinAll rule segments = some joined) {P : Number → Prop}
    (hbounds : ∀ u ∈ segments, P u.start ∧ P u.stop) :
    ∀ g ∈ joined.segments, P g.start ∧ P g.stop :=
  joinAll_forall (M := fun x y : Number => x.place? = y.place?) (fun _ hu => hu)
    (fun _ _ hu hv _ _ => ⟨hu.1, hv.2⟩) hbounds h.tiles.isChain hjoins

/-- The windows of the planned segments are not rounded. -/
theorem Prepared.unrounded (h : s.Prepared infos range segments a b)
    (harithmetic : ExactArithmetic Holds fits) (hids : (s.clips.map Clip.id).Nodup)
    (hwhole : ∀ c ∈ s.clips, c.Whole) (hfits : ∀ c ∈ s.clips, c.FitsIn fits)
    (hbounds : ∀ u ∈ segments, (∃ m, Holds m u.start) ∧ ∃ n, Holds n u.stop)
    (hjoins : joinAll rule segments = some joined) :
    ∀ g ∈ joined.segments, g.Unrounded := by
  intro g hg
  obtain ⟨b', hcut⟩ := h.exists_cut
  have hruns : RunsThrough s.clips g :=
    runsThrough_of_joinAll hwhole (coherent_of_nodup hids) hcut.shows h.seams hjoins g hg
  obtain ⟨⟨m, hm⟩, n, hn⟩ :=
    h.bounds_of_joinAll (P := fun x => ∃ m, Holds m x) hjoins hbounds g hg
  obtain ⟨p, e, hp, he, -, hpe, -⟩ := (joinAll_tiles h.tiles hjoins).places_of_mem hg
  rw [Number.is_whole_iff.1 (harithmetic.is hm), Option.some.injEq] at hp
  rw [Number.is_whole_iff.1 (harithmetic.is hn), Option.some.injEq] at he
  rw [← hp, ← he, Place.point_lt_point, mul_lt_mul_iff_left₀ Number.units_pos] at hpe
  exact hruns.unrounded harithmetic hwhole hfits hm hn hpe

/-- Where the times fit, the windows of the planned segments are not rounded. -/
theorem Prepared.unrounded_of_timesFit (h : s.Prepared infos range segments a b)
    (hrange : s.range? = .ok (some range)) (hids : (s.clips.map Clip.id).Nodup)
    (hwhole : ∀ c ∈ s.clips, c.Whole) (hfit : s.TimesFit)
    (hjoins : joinAll rule segments = some joined) : ∀ g ∈ joined.segments, g.Unrounded := by
  have hwholeTimed : ∀ c ∈ s.clips, c.WholeTimed := fun c hc => (hwhole c hc).wholeTimed
  cases hfit with
  | unset hopen hfits =>
      obtain rfl := Option.some.inj (Except.ok.inj (hrange.symm.trans hopen))
      refine h.unrounded exactArithmetic_int hids hwhole hfits ?_ hjoins
      intro u hu
      obtain ⟨m, n, hm, hn⟩ := h.exists_int hwholeTimed u hu
      exact ⟨⟨m, hm⟩, n, hn⟩
  | small hstart hstop hfits =>
      obtain ⟨hfirst, hlast⟩ := ExportRange.is_of_isWholeBound hstart hstop hrange
      obtain ⟨b', hcut⟩ := h.exists_cut
      have hbound : ∀ x, IsCutBound s.clips range x → ∃ n : Int, x.Is n := by
        rintro x (hx | rfl | hx)
        · obtain ⟨n, rfl⟩ := hx.exists_int hwholeTimed
          exact ⟨n, Number.is_int n⟩
        · exact hfirst
        · exact hlast x hx
      refine h.unrounded exactArithmetic_whole hids hwhole hfits ?_ hjoins
      intro u hu
      exact ⟨hbound _ (hcut.bounds u hu).1, hbound _ (hcut.bounds u hu).2⟩

end Snapshot

end Montage
