import Montage.Proofs.Export.SourceWindow
import Montage.Proofs.Timeline.Delay

/-!
An export of a timeline on which everything happens later.

A joint between delayed segments looks at times that are all so much later, and at what does not
depend on time.  So the delayed segments are joined as the segments are, and each of them plays the
same part of its source: where a segment is on the timeline does not matter, only where it is in its
clip.
-/

namespace Montage

section Joints

variable {p n : Clip} {s s' t t' : Segment} {clips : List Clip} {rule : FilterRule} {k : Int}

theorem closeTimes_delayed (m n k : Int) :
    closeTimes (.int (m + k)) (.int (n + k)) = closeTimes (.int m) (.int n) := by
  simp only [closeTimes_int, add_left_inj]

/-- It matters for a seam when clips start and end only in so far as this is close to the
boundary. -/
theorem seamless_of_starts {a b e e' x x' : Number} (he : p.stop = .ok e)
    (he' : Clip.stop { p with start := a } = .ok e') (hends : closeTimes e' x' = closeTimes e x)
    (hstarts : closeTimes b x' = closeTimes n.start x) :
    seamless { p with start := a } { n with start := b } x' = seamless p n x := by
  have hends' : (Except.ok e' >>= (closeTimes · x')) = (Except.ok e >>= (closeTimes · x)) := hends
  simp only [seamless, he, he', hstarts]
  simp only [← bind_assoc, hends']
  rfl

/-- Delayed clips follow each other without a seam as the clips do. -/
theorem seamless_delayed (hp : p.WholeTimed) (hn : n.WholeTimed) (m : Int) :
    seamless (p.delayed k) (n.delayed k) (.int (m + k)) = seamless p n (.int m) := by
  obtain ⟨e, he, -⟩ := hp.stop_eq
  obtain ⟨a, ha, -⟩ := hn.start
  refine seamless_of_starts he (hp.stop_delayed he) (closeTimes_delayed e m k) ?_
  rw [ha]
  exact closeTimes_delayed a m k

theorem between_delayed (hrule : ∀ c, rule (c.delayed k) = rule c) {prev next : Option Clip}
    (hprev : ∀ c ∈ prev, c.WholeTimed) (hnext : ∀ c ∈ next, c.WholeTimed) (m : Int)
    (channel : Channel) :
    Decision.between rule (prev.map (Clip.delayed k)) (next.map (Clip.delayed k)) (.int (m + k))
        channel = Decision.between rule prev next (.int m) channel := by
  rcases prev with _ | p <;> rcases next with _ | n
  case some.some =>
    have hrendering : ∀ ep en, sameRendering channel (p.delayed k) (n.delayed k) ep en =
        sameRendering channel p n ep en := fun _ _ => rfl
    simp only [Option.map_some, Decision.between, hrule, hrendering,
      seamless_delayed (hprev p rfl) (hnext n rfl)]
    rfl
  all_goals rfl

namespace Segment.DelayedBy

theorem winner?_eq (h : s.DelayedBy k s') (channel : Channel) :
    s'.winner? channel = (s.winner? channel).map (Clip.delayed k) := by
  rw [winner?, winner?, h.run_eq, List.head?_map]

theorem tail?_eq (h : s.DelayedBy k s') (channel : Channel) :
    s'.tail? channel = (s.tail? channel).map (Clip.delayed k) := by
  rw [tail?, tail?, h.run_eq, List.getLast?_map]

/-- At seams, the later segments have the joint of the others. -/
theorem joint_eq (hs : s.DelayedBy k s') (ht : t.DelayedBy k t')
    (hwhole : ∀ c ∈ clips, c.WholeTimed) (hsc : s.Within clips) (htc : t.Within clips)
    (hrule : ∀ c, rule (c.delayed k) = rule c) (hseam : IsSeam s.stop t.start)
    (hseam' : IsSeam s'.stop t'.start) : joint rule s t = joint rule s' t' := by
  obtain ⟨hstop, m, hm⟩ := hseam
  obtain ⟨hstop', m', hm'⟩ := hseam'
  obtain ⟨n, hn, hn'⟩ := ht.start
  rw [hm] at hn
  rw [hm'] at hn'
  obtain rfl : m = n := Int.cast_injective ((Number.is_int m).unique hn)
  obtain rfl : m' = m + k := Int.cast_injective ((Number.is_int m').unique hn')
  have hprev : ∀ channel, ∀ c ∈ s.tail? channel, c.WholeTimed :=
    fun channel c hc => hwhole c (hsc channel c (List.mem_of_getLast? hc))
  have hnext : ∀ channel, ∀ c ∈ t.winner? channel, c.WholeTimed :=
    fun channel c hc => hwhole c (htc channel c (List.mem_of_head? hc))
  simp only [joint, hstop, hstop', hm, hm', closeTimes_delayed, hs.tail?_eq, ht.winner?_eq,
    between_delayed hrule (hprev _) (hnext _)]

theorem joined (hs : s.DelayedBy k s') (ht : t.DelayedBy k t')
    (hj : joint rule s t = some .joined) : (s.joined t).DelayedBy k (s'.joined t') := by
  refine ⟨hs.start, ht.stop, ?_, ?_⟩
  · intro channel
    rw [run_joined, run_joined, hs.run_eq, ht.run_eq, map_extendRun (Clip.id_delayed k)]
  · intro channel hne
    refine hs.kind channel ?_
    intro hnil
    have htnil : t.run channel = [] := by
      by_contra htne
      exact (run_ne_nil_iff hj channel).2 htne hnil
    rw [run_joined, hnil, htnil] at hne
    exact hne rfl

end Segment.DelayedBy

/-- Where a segment is on the timeline does not matter for its window, only where it is in its
clip. -/
theorem Segment.window_delayed {c : Clip} (hstart : s.start.DelayedBy k s'.start)
    (hstop : s.stop.DelayedBy k s'.stop) (hc : c.start.DelayedBy k (c.delayed k).start) :
    s'.window (c.delayed k) = s.window c := by
  have hslice : ∀ duration, Window.ofSlice (c.delayed k) s'.start duration =
      Window.ofSlice c s.start duration := by
    intro duration
    rw [Window.ofSlice, hstart.sub_eq hc]
    rfl
  simp only [window, duration, hstop.sub_eq hstart, hslice]

end Joints

section Ranges

variable {k first m n : Int} {last : Option Int}

/-- A whole number that is not negative is read as the value nearest to it. -/
theorem finite?_int (h : (Number.int m).Fits) (hm : 0 ≤ m) :
    finite? (.number (.int m)) = .ok (some (.ofInt m)) := by
  obtain ⟨hread, c, hc, hof⟩ := h.exists_ofInt hm
  rw [finite?, hread, hof]
  rfl

namespace ExportRange

theorem startOf_ofInt (h : (Number.int m).Fits) (hm : 0 ≤ m) :
    startOf (some (.ofInt m)) = .float (.ofInt m) := by
  obtain ⟨-, c, hc, hof⟩ := h.exists_ofInt hm
  rw [hof, startOf, Number.max]
  split
  · rfl
  · next hlt =>
      rw [Number.lt_iff (p := .point 0) (q := .point c) rfl rfl, Place.point_lt_point,
        Int.natCast_pos, Nat.pos_iff_ne_zero, not_not] at hlt
      subst hlt
      rfl

/-- The range between two whole times, or from one of them on, as it is read. -/
def whole (first : Int) (last : Option Int) : ExportRange :=
  ⟨.float (.ofInt first), last.map fun n => .float (.ofInt n)⟩

/-- A range of whole times is read, unless its ends are rounded to one value. -/
theorem ofSettings_int (hfirst : 0 ≤ first) (hfits : (Number.int first).Fits)
    (hlast : ∀ n ∈ last, first < n ∧ (Number.int n).Fits) :
    ofSettings (.number (.int first)) (last.elim .null fun n => .number (.int n)) =
      .ok (if last.any fun n => (Number.float (.ofInt n)).le (.float (.ofInt first)) then none
        else some (whole first last)) := by
  have hread := finite?_int hfits hfirst
  have hstart := startOf_ofInt hfits hfirst
  cases last with
  | none =>
      have hnone : finite? .null = .ok none := rfl
      rw [Option.elim_none, ofSettings_eq hread hnone, hstart]
      rfl
  | some n =>
      obtain ⟨hlt, hfits'⟩ := hlast n rfl
      have hn : 0 ≤ n := hfirst.trans hlt.le
      have hboth := ofSettings_eq hread (finite?_int hfits' hn)
      simp only [hstart, startOf_ofInt hfits' hn] at hboth
      rw [Option.elim_some, hboth, Option.any_some, whole, Option.map_some]

/-- An end of the range that no segment goes beyond may be left open. -/
theorem clip_open {start stop : Number} {segments : List Segment}
    (h : ∀ s ∈ segments, s.stop.le stop = true) :
    (⟨start, some stop⟩ : ExportRange).clip segments =
      (⟨start, none⟩ : ExportRange).clip segments := by
  rw [clip, clip, List.map_congr_left]
  intro s hs
  obtain ⟨p, q, hp, hq, hpq⟩ := Number.exists_places_of_le (h s hs)
  have hlt : ¬stop.lt s.stop = true := by
    rw [Number.lt_iff hq hp]
    exact not_lt.2 hpq
  simp only [cut, Number.min, hlt, Bool.false_eq_true, ↓reduceIte]

/-- Nothing is left when all segments are over before the range begins. -/
theorem clip_eq_nil {r : ExportRange} {p e : Place} (hr : r.Spans p e) {segments : List Segment}
    {a b : Place} (htiles : Tiles a b segments) (h : ∀ s ∈ segments, s.stop.le r.start = true) :
    r.clip segments = [] := by
  rw [clip, List.filter_eq_nil_iff]
  intro u hu
  obtain ⟨s, hs, rfl⟩ := List.mem_map.1 hu
  obtain ⟨q, q', hq, hq', -⟩ := htiles.places_of_mem hs
  have hle := h s hs
  rw [Number.le_iff hq' hr.start_eq] at hle
  rw [hr.cut_le hq hq' hle]
  exact Bool.false_ne_true

end ExportRange

end Ranges

/-- A setting of the range, so much later. -/
def Document.delayed (k : Int) : Document → Document
  | .number x => .number (x.delayed k)
  | d => d

/-- A segment plays what another one does so much later: the same clips, delayed, and the same parts
of their sources. -/
structure Segment.PlaysLater (k : Int) (g g' : Segment) : Prop where
  start : ∃ q, g.start.Is q ∧ g'.start.Is (q + k)
  stop : ∃ q, g.stop.Is q ∧ g'.stop.Is (q + k)
  run_eq : ∀ channel, g'.run channel = (g.run channel).map (Clip.delayed k)
  window_eq : ∀ channel c, g.winner? channel = some c → g'.window (c.delayed k) = g.window c

namespace Snapshot

/-- The snapshot in which all clips and the range are so much later. -/
def delayed (k : Int) (s : Snapshot) : Snapshot :=
  { s with
    clips := s.clips.map (Clip.delayed k)
    settings := { s.settings with
      rangeStart := s.settings.rangeStart.delayed k
      rangeEnd := s.settings.rangeEnd.delayed k } }

/-- The range is set to whole times, or to one from which on it is open. -/
structure HasRange (s : Snapshot) (first : Int) (last : Option Int) : Prop where
  start_eq : s.settings.rangeStart = .number (.int first)
  stop_eq : s.settings.rangeEnd = last.elim .null fun n => .number (.int n)
  nonneg : 0 ≤ first
  lt : ∀ n ∈ last, first < n

/-- Binary64 holds the sums of the times of a snapshot: the ends of its clips, and their starts and
ends and those of the range so much later. -/
structure HoldsSums (s : Snapshot) (k first : Int) (last : Option Int) : Prop where
  start : ∀ c ∈ s.clips, ∀ n, c.start = .int n → (Number.int (n + k)).IsExact
  stop : ∀ c ∈ s.clips, ∀ n, c.stop = .ok (.int n) → Number.StaysExact k n
  first : (Number.int (first + k)).IsExact
  last : ∀ n ∈ last, (Number.int (n + k)).IsExact

/-- Two plans of which the second plays the same so much later, or the same fault. -/
inductive PlansLater (k : Int) :
    Except Fault (Option Joined) → Except Fault (Option Joined) → Prop
  | fault (f : Fault) : PlansLater k (.error f) (.error f)
  | some {r r' : Joined} (h : Joined.Related (Segment.PlaysLater k) r r') :
      PlansLater k (.ok (some r)) (.ok (some r'))

section Delayed

variable {s : Snapshot} {k first x : Int} {last : Option Int} {c : Clip}

theorem nodup_delayed (h : (s.clips.map Clip.id).Nodup) :
    ((s.delayed k).clips.map Clip.id).Nodup := by
  rw [delayed, List.map_map]
  exact h

theorem HasRange.delayed (h : s.HasRange first last) (hk : 0 ≤ k) :
    (s.delayed k).HasRange (first + k) (last.map (· + k)) := by
  refine ⟨congrArg (Document.delayed k) h.start_eq, ?_, add_nonneg h.nonneg hk, ?_⟩
  · have hstop := congrArg (Document.delayed k) h.stop_eq
    cases last <;> exact hstop
  · intro n hn
    obtain ⟨m, hm, rfl⟩ := Option.mem_map.1 hn
    exact add_lt_add_left (h.lt m hm) k

theorem HasRange.range?_eq (h : s.HasRange first last) (hfits : (Number.int first).Fits)
    (hfits' : ∀ n ∈ last, (Number.int n).Fits) :
    s.range? = .ok (
      if last.any fun n => (Number.float (.ofInt n)).le (.float (.ofInt first)) then none
      else some (.whole first last)) := by
  rw [range?, h.start_eq, h.stop_eq]
  exact ExportRange.ofSettings_int h.nonneg hfits fun n hn => ⟨h.lt n hn, hfits' n hn⟩

/-- No boundary lies after a whole time at which all clips have ended. -/
theorem le_of_isBound (hwhole : ∀ c ∈ s.clips, c.WholeTimed) {y : Int} (hy : 0 ≤ y)
    (hstops : ∀ c ∈ s.clips, ∀ e : Int, c.stop = .ok (.int e) → e ≤ y)
    (hx : IsBound s.clips (.int x)) : x ≤ y := by
  rcases hx with hx | ⟨c, hc, hx | hx⟩
  · rwa [Number.int.inj hx]
  · obtain ⟨m, e, hm, he, -, hlt⟩ := (hwhole c hc).exists_times
    obtain rfl : x = m := Number.int.inj (hx.trans hm)
    exact hlt.le.trans (hstops c hc e he)
  · exact hstops c hc x hx

namespace HoldsSums

variable (h : s.HoldsSums k first last) (hk : 0 ≤ k)
include h hk

/-- Before the end of a clip, a whole time is held that is held later. -/
theorem staysExact_of_le (hc : c ∈ s.clips) {e : Int} (he : c.stop = .ok (.int e)) (hx : 0 ≤ x)
    (hxe : x ≤ e) (hlater : (Number.int (x + k)).IsExact) : Number.StaysExact k x :=
  ⟨Number.isExact_of_add hx hxe hk (h.stop c hc e he).now (h.stop c hc e he).later hlater, hlater⟩

theorem staysExact_start (hwhole : ∀ c ∈ s.clips, c.WholeTimed) (hc : c ∈ s.clips)
    (hx : c.start = .int x) : Number.StaysExact k x := by
  obtain ⟨m, e, hm, he, hm0, hlt⟩ := (hwhole c hc).exists_times
  obtain rfl : m = x := Number.int.inj (hm.symm.trans hx)
  exact h.staysExact_of_le hk hc he hm0 hlt.le (h.start c hc m hm)

/-- All boundaries inside the range are held, also later. -/
theorem staysExact_of_isBound (hwhole : ∀ c ∈ s.clips, c.WholeTimed) (hfirst : 0 ≤ first)
    (hx : IsBound s.clips (.int x)) (hle : first ≤ x) : Number.StaysExact k x := by
  rcases hx with hx | ⟨c, hc, hx | hx⟩
  · obtain rfl : x = 0 := Number.int.inj hx
    obtain rfl : first = 0 := le_antisymm hle hfirst
    exact ⟨Number.isExact_of_le (by decide), h.first⟩
  · exact h.staysExact_start hk hwhole hc hx.symm
  · exact h.stop c hc x hx

theorem isExact_of_isBound (hwhole : ∀ c ∈ s.clips, c.WholeTimed)
    (hx : IsBound s.clips (.int x)) : (Number.int x).IsExact := by
  rcases hx with hx | ⟨c, hc, hx | hx⟩
  · obtain rfl : x = 0 := Number.int.inj hx
    exact Number.isExact_of_le (by decide)
  · exact (h.staysExact_start hk hwhole hc hx.symm).now
  · exact (h.stop c hc x hx).now

/-- The boundaries of the delayed clips are held, and lie no later than their end. -/
theorem bounds_delayed (hwhole : ∀ c ∈ s.clips, c.WholeTimed) {y : Int} (hy : 0 ≤ y)
    (hstops : ∀ c ∈ s.clips, ∀ e : Int, c.stop = .ok (.int e) → e ≤ y)
    (hx : IsBound (s.clips.map (Clip.delayed k)) (.int x)) :
    (Number.int x).IsExact ∧ x ≤ y + k := by
  obtain hx | ⟨c, hc, n, hn, hx⟩ := (IsBound.delayed_iff hwhole).1 hx
  · obtain rfl : x = 0 := Number.int.inj hx
    exact ⟨Number.isExact_of_le (by decide), add_nonneg hy hk⟩
  · obtain rfl : x = n + k := Number.int.inj hx
    have hle : n ≤ y := le_of_isBound hwhole hy hstops (Or.inr ⟨c, hc, hn.imp_left Eq.symm⟩)
    refine ⟨?_, add_le_add_left hle k⟩
    rcases hn with hn | hn
    · exact h.start c hc n hn
    · exact (h.stop c hc n hn).later

end HoldsSums

/-- Segments are over by a time that no boundary lies after, also if it is rounded. -/
theorem stop_le_of_isBound {sources : Sources} {clips : List Clip} {segments : List Segment}
    {b : Place} (hres : Resolution sources clips segments b)
    (hwhole : ∀ c ∈ clips, c.WholeTimed) {y : Int}
    (hbounds : ∀ x, IsBound clips (.int x) → (Number.int x).IsExact ∧ x ≤ y) :
    ∀ u ∈ segments, u.stop.le (.float (.ofInt y)) = true := by
  intro u hu
  have hbound := (hres.resolved u hu).stop_bound
  obtain ⟨x, hx⟩ := hbound.exists_int hwhole
  rw [hx] at hbound ⊢
  obtain ⟨q, hq, hq0⟩ := hbound.nonneg fun c hc => (hwhole c hc).wellTimed
  rw [Number.place?_int, Option.some.injEq] at hq
  rw [← hq, Place.point_le_point, mul_nonneg_iff_of_pos_right Number.units_pos] at hq0
  obtain ⟨hexact, hle⟩ := hbounds x hbound
  exact Number.le_ofInt hq0 hle hexact

section Stops

variable {sources : Sources} {segments segments' : List Segment} {b b' : Place} {y : Int}
  (h : s.HoldsSums k first last) (hk : 0 ≤ k) (hwhole : ∀ c ∈ s.clips, c.WholeTimed) (hy : 0 ≤ y)
  (hstops : ∀ c ∈ s.clips, ∀ e : Int, c.stop = .ok (.int e) → e ≤ y)
include h hk hwhole hy hstops

theorem HoldsSums.stop_le (hres : Resolution sources s.clips segments b) :
    ∀ u ∈ segments, u.stop.le (.float (.ofInt y)) = true := by
  apply stop_le_of_isBound hres hwhole
  intro x hx
  exact ⟨h.isExact_of_isBound hk hwhole hx, le_of_isBound hwhole hy hstops hx⟩

theorem HoldsSums.stop_le_delayed
    (hres' : Resolution sources (s.clips.map (Clip.delayed k)) segments' b') :
    ∀ u ∈ segments', u.stop.le (.float (.ofInt (y + k))) = true := by
  apply stop_le_of_isBound hres' (forall_wholeTimed_delayed hwhole hk)
  intro x hx
  exact h.bounds_delayed hk hwhole hy hstops hx

end Stops

section Plans

variable {infos : Option (List (String × MediaInfo))} {rule : Option FilterRule}
  {range range' : ExportRange} {segments segments' : List Segment} {b b' : Place}

/-- The resolved segments inside the range are what is joined. -/
theorem planSegments_of_resolution (hids : (s.clips.map Clip.id).Nodup)
    (hwhole : ∀ c ∈ s.clips, c.WholeTimed)
    (hresolve : resolve (s.sources infos) s.clips = .ok segments)
    (hres : Resolution (s.sources infos) s.clips segments b)
    (hrange : s.range? = .ok (some range)) :
    s.planSegments infos rule =
        (outcome (joinAll (s.ruleFor rule) (range.clip segments))).map some ∧
      ((range.clip segments).IsChain fun u v => IsSeam u.stop v.start) ∧
      ∀ u ∈ range.clip segments, u.Within s.clips := by
  obtain ⟨p, e, hset⟩ := ExportRange.ofSettings_spec hrange
  have hcut := hres.cut hset
  exact ⟨planSegments_eq (coherent_of_nodup hids) hresolve hrange hcut.within,
    ExportRange.clip_isChain (M := IsSeam) hset.toSpans hres.tiles (hres.isChain_isSeam hwhole),
    hcut.within⟩

theorem playsLater_of_delayedBy {g g' : Segment} (h : g.DelayedBy k g')
    (hwithin : g.Within s.clips) (hwhole : ∀ c ∈ s.clips, c.WholeTimed)
    (hstarts : ∀ c ∈ s.clips, ∀ x, c.start = .int x → Number.StaysExact k x) :
    g.PlaysLater k g' := by
  obtain ⟨m, hm, hm'⟩ := h.start
  obtain ⟨n, hn, hn'⟩ := h.stop.exists_is
  rw [Int.cast_add] at hm' hn'
  refine ⟨⟨m, hm, hm'⟩, ⟨n, hn, hn'⟩, h.run_eq, ?_⟩
  intro channel c hc
  have hplays : c ∈ g.run channel := List.mem_of_head? hc
  have hmem := hwithin channel c hplays
  obtain ⟨x, hx, -⟩ := (hwhole c hmem).start
  refine Segment.window_delayed (h.kind channel (List.ne_nil_of_mem hplays)) h.stop ?_
  rw [Clip.WholeTimed.start_delayed hx, hx]
  exact .int (hstarts c hmem x hx)

/-- Where the segments inside the ranges play the same so much later, the plans do. -/
theorem plansLater_of_clip (hk : 0 ≤ k) (hids : (s.clips.map Clip.id).Nodup)
    (hwhole : ∀ c ∈ s.clips, c.WholeTimed)
    (hstarts : ∀ c ∈ s.clips, ∀ x, c.start = .int x → Number.StaysExact k x)
    (hrule : ∀ c, s.ruleFor rule (c.delayed k) = s.ruleFor rule c)
    (hresolve : resolve (s.sources infos) s.clips = .ok segments)
    (hres : Resolution (s.sources infos) s.clips segments b)
    (hresolve' : resolve ((s.delayed k).sources infos) (s.delayed k).clips = .ok segments')
    (hres' : Resolution ((s.delayed k).sources infos) (s.delayed k).clips segments' b')
    (hrange : s.range? = .ok (some range)) (hrange' : (s.delayed k).range? = .ok (some range'))
    (hclip : List.Forall₂ (Segment.DelayedBy k) (range.clip segments) (range'.clip segments')) :
    PlansLater k (s.planSegments infos rule) ((s.delayed k).planSegments infos rule) := by
  have hsame : (s.delayed k).ruleFor rule = s.ruleFor rule := rfl
  obtain ⟨hplan, hseams, hwithin⟩ := planSegments_of_resolution hids hwhole hresolve hres hrange
  obtain ⟨hplan', hseams', -⟩ := planSegments_of_resolution (nodup_delayed hids)
    (forall_wholeTimed_delayed hwhole hk) hresolve' hres' hrange'
  have hpairs : List.Forall₂ (fun u u' => u.DelayedBy k u' ∧ u.Within s.clips)
      (range.clip segments) (range'.clip segments') :=
    forall₂_imp_of_mem hclip fun u hu _ _ h => ⟨h, hwithin u hu⟩
  have hjoined : Option.Rel (Joined.Related fun u u' => u.DelayedBy k u' ∧ u.Within s.clips)
      (joinAll (s.ruleFor rule) (range.clip segments))
      (joinAll (s.ruleFor rule) (range'.clip segments')) := by
    refine joinAll_related ?_ ?_ hpairs hseams hseams'
    · intro u u' v v' hu hv hseam hseam'
      exact hu.1.joint_eq hv.1 hwhole hu.2 hv.2 hrule hseam hseam'
    · intro u u' v v' hu hv hj
      exact ⟨hu.1.joined hv.1 hj, hu.2.joined hv.2⟩
  rw [hplan, hplan', hsame]
  generalize joinAll (s.ruleFor rule) (range.clip segments) = joined,
    joinAll (s.ruleFor rule) (range'.clip segments') = joined' at hjoined
  cases hjoined with
  | none => exact .fault _
  | some h =>
      refine .some ⟨h.segments.imp ?_, h.blocked_eq⟩
      intro g g' hg
      exact playsLater_of_delayedBy hg.1 hg.2 hwhole hstarts

end Plans

section Ranges

/-- Where binary64 holds the start of the range, and a time between the start and the end, the range
is read. -/
theorem HasRange.range?_eq_some (h : s.HasRange first last) (hfirst : (Number.int first).IsExact)
    (hlast : ∀ n ∈ last, (Number.int n).Fits ∧
      ∃ x, first < x ∧ x ≤ n ∧ (Number.int x).IsExact) :
    s.range? = .ok (some (.whole first last)) := by
  rw [h.range?_eq (Number.fits_of_le h.nonneg le_rfl hfirst) fun n hn => (hlast n hn).1, if_neg]
  rw [Option.any_eq_true]
  rintro ⟨n, hn, hle⟩
  obtain ⟨-, x, hlt, hxn, hx⟩ := hlast n hn
  have hbetween := Number.le_trans (Number.le_ofInt (h.nonneg.trans hlt.le) hxn hx) hle
  rw [Number.le_iff_of_is (Number.is_int x) (Number.is_ofInt hfirst)] at hbetween
  exact absurd hlt (not_lt.2 hbetween)

theorem HoldsSums.range?_delayed (h : s.HoldsSums k first last) (hk : 0 ≤ k)
    (hrange : s.HasRange first last) :
    (s.delayed k).range? = .ok (some (.whole (first + k) (last.map (· + k)))) := by
  apply (hrange.delayed hk).range?_eq_some h.first
  intro n hn
  obtain ⟨m, hm, rfl⟩ := Option.mem_map.1 hn
  have hlt := hrange.lt m hm
  have hnonneg : 0 ≤ m + k := add_nonneg (hrange.nonneg.trans hlt.le) hk
  exact ⟨Number.fits_of_le hnonneg le_rfl (h.last m hm), m + k, add_lt_add_left hlt k, le_rfl,
    h.last m hm⟩

variable {segments segments' : List Segment} {b b' : Place} {sources : Sources}
  (hk : 0 ≤ k) (hwhole : ∀ c ∈ s.clips, c.WholeTimed) (hrange : s.HasRange first last)
  (hsums : s.HoldsSums k first last)
include hk hwhole hrange hsums

/-- When binary64 holds the start of the range, two ranges so much apart leave of the segments what
the ranges that are read do: an end that is not held lies after all clips, and can be left open. -/
theorem exists_delayedBy (hfirst : Number.StaysExact k first)
    (hres : Resolution sources s.clips segments b)
    (hres' : Resolution sources (s.clips.map (Clip.delayed k)) segments' b') :
    ∃ r r' : ExportRange, r.DelayedBy k r' ∧ r.start.Is first ∧
      r'.start.Is ((first + k : Int) : ℚ) ∧
      (ExportRange.whole first last).clip segments = r.clip segments ∧
      (ExportRange.whole (first + k) (last.map (· + k))).clip segments' = r'.clip segments' := by
  have hstart : (Number.float (.ofInt first)).Is first := Number.is_ofInt hfirst.now
  have hstart' := Number.is_ofInt hfirst.later
  cases last with
  | none => exact ⟨.whole first none, .whole (first + k) none, ⟨.float hfirst, .none⟩, hstart,
      hstart', rfl, rfl⟩
  | some n =>
      by_cases hn : (Number.int n).IsExact
      · exact ⟨.whole first (some n), .whole (first + k) (some (n + k)),
          ⟨.float hfirst, .some (.float ⟨hn, hsums.last n rfl⟩)⟩, hstart, hstart', rfl, rfl⟩
      · have hnonneg : 0 ≤ n := hrange.nonneg.trans (hrange.lt n rfl).le
        have hstops : ∀ c ∈ s.clips, ∀ e : Int, c.stop = .ok (.int e) → e ≤ n := by
          intro c hc e he
          by_contra hlt
          exact hn (hsums.staysExact_of_le hk hc he hnonneg (not_le.1 hlt).le
            (hsums.last n rfl)).now
        exact ⟨.whole first none, .whole (first + k) none, ⟨.float hfirst, .none⟩, hstart, hstart',
          ExportRange.clip_open (hsums.stop_le hk hwhole hnonneg hstops hres),
          ExportRange.clip_open (hsums.stop_le_delayed hk hwhole hnonneg hstops hres')⟩

end Ranges

section Cases

variable {infos : Option (List (String × MediaInfo))} {rule : Option FilterRule}
  {segments segments' : List Segment} {b b' : Place}
  (hk : 0 ≤ k) (hids : (s.clips.map Clip.id).Nodup) (hwhole : ∀ c ∈ s.clips, c.WholeTimed)
  (hrange : s.HasRange first last) (hsums : s.HoldsSums k first last)
  (hrule : ∀ c, s.ruleFor rule (c.delayed k) = s.ruleFor rule c)
  (hresolve : resolve (s.sources infos) s.clips = .ok segments)
  (hres : Resolution (s.sources infos) s.clips segments b)
  (hresolve' : resolve ((s.delayed k).sources infos) (s.delayed k).clips = .ok segments')
  (hres' : Resolution ((s.delayed k).sources infos) (s.delayed k).clips segments' b')
include hk hids hwhole hrange hsums hrule hresolve hres hresolve' hres'

/-- If a clip ends after the start of the range, the plan is the same so much later. -/
theorem plansLater_of_lt_stop (hc : c ∈ s.clips) {e : Int} (he : c.stop = .ok (.int e))
    (hlt : first < e) :
    PlansLater k (s.planSegments infos rule) ((s.delayed k).planSegments infos rule) := by
  have hfirst : Number.StaysExact k first :=
    hsums.staysExact_of_le hk hc he hrange.nonneg hlt.le hsums.first
  have hread : s.range? = .ok (some (.whole first last)) := by
    apply hrange.range?_eq_some hfirst.now
    intro n hn
    have hn0 : 0 ≤ n := hrange.nonneg.trans (hrange.lt n hn).le
    refine ⟨Number.fits_of_le hn0 (le_add_of_nonneg_right hk) (hsums.last n hn), ?_⟩
    by_cases hne : n ≤ e
    · exact ⟨n, hrange.lt n hn, le_rfl,
        (hsums.staysExact_of_le hk hc he hn0 hne (hsums.last n hn)).now⟩
    · exact ⟨e, hlt, (not_le.1 hne).le, (hsums.stop c hc e he).now⟩
  obtain ⟨r, r', hr, hstart, hstart', hleft, hleft'⟩ :=
    exists_delayedBy hk hwhole hrange hsums hfirst hres hres'
  refine plansLater_of_clip hk hids hwhole (fun c hc x => hsums.staysExact_start hk hwhole hc) hrule
    hresolve hres hresolve' hres' hread (hsums.range?_delayed hk hrange) ?_
  rw [hleft, hleft']
  refine hr.clip hstart hstart' hrange.nonneg hres'.tiles
    (hres.clip_delayed hwhole hk hres' (resolve_isChain hresolve) (resolve_isChain hresolve'))
    (hres.isWhole hwhole) (hres'.isWhole (forall_wholeTimed_delayed hwhole hk)) ?_
    (hres'.run_eq_nil_of_early hwhole)
  rintro u hu x (hx | hx) hle
  · exact hsums.staysExact_of_isBound hk hwhole hrange.nonneg
      (hx ▸ (hres.resolved u hu).start_bound) hle
  · exact hsums.staysExact_of_isBound hk hwhole hrange.nonneg
      (hx ▸ (hres.resolved u hu).stop_bound) hle

/-- If all clips have ended by the start of the range, there is nothing in any plan. -/
theorem plansLater_of_stop_le
    (hstops : ∀ c ∈ s.clips, ∀ e : Int, c.stop = .ok (.int e) → e ≤ first) :
    PlansLater k (s.planSegments infos rule) ((s.delayed k).planSegments infos rule) ∨
      s.planSegments infos rule = .ok none ∧
        (s.delayed k).planSegments infos rule = .ok (some ⟨[], false⟩) ∧
        ¬((Number.int first).IsExact ∧ ∀ n ∈ last, (Number.int n).IsExact) := by
  have hfits : (Number.int first).Fits :=
    Number.fits_of_le hrange.nonneg (le_add_of_nonneg_right hk) hsums.first
  have hfits' : ∀ n ∈ last, (Number.int n).Fits := fun n hn =>
    Number.fits_of_le (hrange.nonneg.trans (hrange.lt n hn).le) (le_add_of_nonneg_right hk)
      (hsums.last n hn)
  have hread := hrange.range?_eq hfits hfits'
  have hread' := hsums.range?_delayed hk hrange
  obtain ⟨p', e', hset'⟩ := ExportRange.ofSettings_spec hread'
  have hnil' : (ExportRange.whole (first + k) (last.map (· + k))).clip segments' = [] :=
    ExportRange.clip_eq_nil hset'.toSpans hres'.tiles
      (hsums.stop_le_delayed hk hwhole hrange.nonneg hstops hres')
  split at hread
  · next hover =>
      refine Or.inr ⟨?_, ?_, ?_⟩
      · rw [planSegments_of_no_range ⟨segments, hresolve⟩ (by simp [hread]), hread]
        rfl
      · rw [(planSegments_of_resolution (nodup_delayed hids) (forall_wholeTimed_delayed hwhole hk)
          hresolve' hres' hread').1, hnil']
        rfl
      · rintro ⟨hfirst, hlast⟩
        have hsome := hrange.range?_eq_some hfirst fun n hn =>
          ⟨hfits' n hn, n, hrange.lt n hn, le_rfl, hlast n hn⟩
        rw [hread] at hsome
        simp only [Except.ok.injEq, reduceCtorEq] at hsome
  · obtain ⟨p, e, hset⟩ := ExportRange.ofSettings_spec hread
    refine Or.inl (plansLater_of_clip hk hids hwhole
      (fun c hc x => hsums.staysExact_start hk hwhole hc) hrule hresolve hres hresolve' hres' hread
      hread' ?_)
    rw [hnil', ExportRange.clip_eq_nil hset.toSpans hres.tiles
      (hsums.stop_le hk hwhole hrange.nonneg hstops hres)]
    exact .nil

end Cases

/-- A snapshot in which everything happens later has the plan of the snapshot, so much later: the
same runs play in segments whose bounds are moved, and the windows of their winners stay as they
are.  But where no clip ends after the start of the range, and its ends are rounded to one value,
there is no plan, and there may be an empty one later. -/
theorem planSegments_delayed (infos : Option (List (String × MediaInfo)))
    (rule : Option FilterRule) (hk : 0 ≤ k) (hids : (s.clips.map Clip.id).Nodup)
    (hwhole : ∀ c ∈ s.clips, c.WholeTimed) (hrange : s.HasRange first last)
    (hsums : s.HoldsSums k first last) (hrule : ∀ f ∈ rule, ∀ c, f (c.delayed k) = f c) :
    PlansLater k (s.planSegments infos rule) ((s.delayed k).planSegments infos rule) ∨
      s.planSegments infos rule = .ok none ∧
        (s.delayed k).planSegments infos rule = .ok (some ⟨[], false⟩) ∧
        (∀ c ∈ s.clips, ∀ e : Int, c.stop = .ok (.int e) → e ≤ first) ∧
        ¬((Number.int first).IsExact ∧ ∀ n ∈ last, (Number.int n).IsExact) := by
  have hrule' : ∀ c, s.ruleFor rule (c.delayed k) = s.ruleFor rule c := by
    intro c
    cases rule with
    | none => rfl
    | some f => exact hrule f rfl c
  have hwhole' := forall_wholeTimed_delayed hwhole hk
  obtain ⟨stops, hstops⟩ := exists_stops_of_wholeTimed hwhole
  obtain ⟨segments, b, hresolve, hres⟩ := exists_resolution (s.sources infos) hids
    (fun c hc => (hwhole c hc).wellTimed) hstops
  obtain ⟨stops', hstops'⟩ := exists_stops_of_wholeTimed hwhole'
  obtain ⟨segments', b', hresolve', hres'⟩ := exists_resolution ((s.delayed k).sources infos)
    (nodup_delayed hids) (fun c hc => (hwhole' c hc).wellTimed) hstops'
  by_cases hlasts : ∃ c ∈ s.clips, ∃ e : Int, c.stop = .ok (.int e) ∧ first < e
  · obtain ⟨c, hc, e, he, hlt⟩ := hlasts
    exact Or.inl (plansLater_of_lt_stop hk hids hwhole hrange hsums hrule' hresolve hres hresolve'
      hres' hc he hlt)
  · have hover : ∀ c ∈ s.clips, ∀ e : Int, c.stop = .ok (.int e) → e ≤ first := by
      intro c hc e he
      by_contra hlt
      exact hlasts ⟨c, hc, e, he, not_le.1 hlt⟩
    obtain h | ⟨hnone, hempty, hinexact⟩ := plansLater_of_stop_le hk hids hwhole hrange hsums
      hrule' hresolve hres hresolve' hres' hover
    · exact Or.inl h
    · exact Or.inr ⟨hnone, hempty, hover, hinexact⟩

/-- Binary64 holds the sums of all times that are, so much later, not beyond `2 ^ 53`. -/
theorem holdsSums_of_le (hk : 0 ≤ k) (hwhole : ∀ c ∈ s.clips, c.WholeTimed)
    (hrange : s.HasRange first last)
    (hstops : ∀ c ∈ s.clips, ∀ e : Int, c.stop = .ok (.int e) → e + k ≤ 2 ^ 53)
    (hfirst : first + k ≤ 2 ^ 53) (hlast : ∀ n ∈ last, n + k ≤ 2 ^ 53) :
    s.HoldsSums k first last := by
  have hheld : ∀ {n : Int}, 0 ≤ n → n ≤ 2 ^ 53 → (Number.int n).IsExact :=
    fun h0 hle => Number.isExact_of_le (by omega)
  have hfirst0 := hrange.nonneg
  constructor
  case start =>
    intro c hc n hn
    obtain ⟨m, e, hm, he, hm0, hlt⟩ := (hwhole c hc).exists_times
    obtain rfl : m = n := Number.int.inj (hm.symm.trans hn)
    have hend := hstops c hc e he
    exact hheld (by omega) (by omega)
  case stop =>
    intro c hc e he
    obtain ⟨m, e', -, he', hm0, hlt⟩ := (hwhole c hc).exists_times
    obtain rfl : e' = e := Number.int.inj (Except.ok.inj (he'.symm.trans he))
    have hend := hstops c hc e' he
    exact ⟨hheld (by omega) (by omega), hheld (by omega) (by omega)⟩
  case first => exact hheld (by omega) hfirst
  case last =>
    intro n hn
    have hlt := hrange.lt n hn
    exact hheld (by omega) (hlast n hn)

end Delayed

end Snapshot

/-- A film that after a while runs backward, and a song that goes on when it is over. -/
def lateFilm : Snapshot where
  clips := [{ id := "film", mediaId := "film", track := 0, start := 400, duration := 1000
              trimStart := some 100, speed := some 2, reversed := true },
    { id := "song", mediaId := "song", track := 1, start := 1000, duration := 1000
      speed := some 1 }]
  media := [{ id := "film", name := "film.mp4", mimeType := "video/mp4" },
    { id := "song", name := "song.mp3", mimeType := "audio/mp3" }]
  settings := { rangeStart := .number 200, rangeEnd := .number 1700 }

theorem lateFilm_wholeTimed : ∀ c ∈ lateFilm.clips, c.WholeTimed := by
  simp only [lateFilm, List.forall_mem_cons]
  exact ⟨⟨⟨400, rfl, by decide⟩, 1000, rfl, by decide⟩,
    ⟨⟨1000, rfl, by decide⟩, 1000, rfl, by decide⟩, List.forall_mem_nil _⟩

theorem lateFilm_hasRange : lateFilm.HasRange 200 (some 1700) :=
  ⟨rfl, rfl, by decide, by simp⟩

theorem lateFilm_holdsSums : lateFilm.HoldsSums 250 200 (some 1700) := by
  apply Snapshot.holdsSums_of_le (by decide) lateFilm_wholeTimed lateFilm_hasRange
  · simp only [lateFilm, List.forall_mem_cons]
    refine ⟨?_, ?_, List.forall_mem_nil _⟩
    · rintro e ⟨⟩
      decide
    · rintro e ⟨⟩
      decide
  · decide
  · simp

theorem planSegments_lateFilm :
    (lateFilm.clips.map Clip.id).Nodup ∧ (∀ c ∈ lateFilm.clips, c.WholeTimed) ∧
      lateFilm.HasRange 200 (some 1700) ∧ lateFilm.HoldsSums 250 200 (some 1700) ∧
      Snapshot.PlansLater 250 (lateFilm.planSegments none none)
        ((lateFilm.delayed 250).planSegments none none) := by
  have hids : (lateFilm.clips.map Clip.id).Nodup := by decide
  refine ⟨hids, lateFilm_wholeTimed, lateFilm_hasRange, lateFilm_holdsSums, ?_⟩
  obtain h | ⟨-, -, hover, -⟩ := Snapshot.planSegments_delayed none none (by decide) hids
    lateFilm_wholeTimed lateFilm_hasRange lateFilm_holdsSums (by simp)
  · exact h
  · have hle : (1400 : Int) ≤ 200 := hover _ List.mem_cons_self 1400 rfl
    exact absurd hle (by decide)

/-- A film with a range far behind it, whose ends are one value in binary64. -/
def narrowFilm : Snapshot where
  clips := [halves.1]
  media := wholeFilm.media
  settings := { rangeStart := .number (.int (2 ^ 53 + 3)), rangeEnd := .number (.int (2 ^ 53 + 5)) }

theorem narrowFilm_holdsSums : narrowFilm.HoldsSums 1 (2 ^ 53 + 3) (some (2 ^ 53 + 5)) := by
  constructor
  case start =>
    simp only [narrowFilm, List.forall_mem_singleton]
    rintro n ⟨⟩
    exact Number.isExact_of_le (by decide)
  case stop =>
    simp only [narrowFilm, List.forall_mem_singleton]
    rintro e ⟨⟩
    exact ⟨Number.isExact_of_le (by decide), Number.isExact_of_le (by decide)⟩
  case first => exact Number.isExact_int_iff.2 (by decide +kernel)
  case last =>
    rintro n ⟨⟩
    exact Number.isExact_int_iff.2 (by decide +kernel)

/-- Later by one, the ends of the range are two values: there is a plan, if an empty one. -/
theorem planSegments_narrowFilm :
    (narrowFilm.clips.map Clip.id).Nodup ∧ (∀ c ∈ narrowFilm.clips, c.WholeTimed) ∧
      narrowFilm.HasRange (2 ^ 53 + 3) (some (2 ^ 53 + 5)) ∧
      narrowFilm.HoldsSums 1 (2 ^ 53 + 3) (some (2 ^ 53 + 5)) ∧
      narrowFilm.planSegments none none = .ok none ∧
      (narrowFilm.delayed 1).planSegments none none = .ok (some ⟨[], false⟩) ∧
      ¬Snapshot.PlansLater 1 (narrowFilm.planSegments none none)
        ((narrowFilm.delayed 1).planSegments none none) := by
  have hwhole : ∀ c ∈ narrowFilm.clips, c.WholeTimed :=
    List.forall_mem_singleton.2 halves_whole.1.wholeTimed
  have hnone : (narrowFilm.planSegments none none).map Option.isSome = .ok false := by
    decide +kernel
  have hempty : ((narrowFilm.delayed 1).planSegments none none).map
      (Option.map fun r => (r.segments.length, r.blocked)) = .ok (some (0, false)) := by
    decide +kernel
  obtain ⟨plan, hplan, hplanNone⟩ := exists_of_map_eq_ok hnone
  obtain rfl : plan = none := by simpa using hplanNone
  obtain ⟨plan', hplan', hplanEmpty⟩ := exists_of_map_eq_ok hempty
  obtain ⟨⟨segments, blocked⟩, rfl, hr⟩ := Option.map_eq_some_iff.1 hplanEmpty
  rw [Prod.mk.injEq, List.length_eq_zero_iff] at hr
  obtain ⟨rfl, rfl⟩ := hr
  refine ⟨by decide, hwhole, ⟨rfl, rfl, by decide, by simp⟩, narrowFilm_holdsSums, hplan, hplan',
    ?_⟩
  rw [hplan]
  rintro ⟨⟩

end Montage
