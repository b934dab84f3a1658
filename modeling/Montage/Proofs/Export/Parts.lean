import Montage.Proofs.Export.Length
import Montage.Proofs.Timeline.Halving

/-!
An export range in two parts.

The segments planned for two ranges that meet, joined once more, are those planned for the two
ranges as one, wherever the ranges meet: inside a clip, at a seam, in a gap or after the timeline.
-/

namespace Montage

namespace ExportRange

/-- Of a value that is not negative, the range begins at the value. -/
theorem place?_startOf {v : Binary64} {p : Place} (hv : (Number.float v).place? = some p)
    (hp : Place.point 0 ≤ p) : (startOf (some v)).place? = some p := by
  have hzero : (Number.float Binary64.zero).place? = some (.point 0) := rfl
  rw [startOf, Number.place?_max hzero hv, max_eq_right hp]

/-- Values that are not negative bound a range as they follow each other. -/
theorem startOf_le_startOf {v w : Binary64} (hv : Number.le 0 (.float v) = true)
    (h : (Number.float v).lt (.float w) = true) :
    (startOf (some w)).le (startOf (some v)) = false := by
  obtain ⟨z, p, hz, hp, hzp⟩ := Number.exists_places_of_le hv
  obtain ⟨p', q, hp', hq, hpq⟩ := Number.exists_places_of_lt h
  obtain rfl : Place.point 0 = z := Option.some.inj (Number.place?_zero.symm.trans hz)
  obtain rfl : p' = p := Option.some.inj (hp'.symm.trans hp)
  rw [Bool.eq_false_iff, ne_eq, Number.le_iff (place?_startOf hq (hzp.trans hpq.le))
    (place?_startOf hp hzp), not_le]
  exact hpq

end ExportRange

/-- A value below another one, and not below zero, is finite. -/
theorem Binary64.isFinite_of_lt {v : Binary64} {x : Number} (hv : Number.le 0 (.float v) = true)
    (h : (Number.float v).lt x = true) : v.isFinite = true := by
  obtain ⟨p, q, hp, -, hpq⟩ := Number.exists_places_of_lt h
  rcases v with _ | ⟨_ | _⟩ | ⟨s, m, hm⟩
  · simp only [Number.place?, reduceCtorEq] at hp
  · obtain rfl : Place.top = p := Option.some.inj hp
    exact absurd hpq (not_lt.2 (Place.le_top q))
  · exact absurd hv (by decide)
  · rfl

namespace Snapshot

/-- The snapshot with the range from one value to another, or an open one. -/
def between (s : Snapshot) (start : Binary64) (stop : Option Binary64) : Snapshot :=
  { s with
    settings := { s.settings with
      rangeStart := .number (.float start)
      rangeEnd := match stop with
        | some x => .number (.float x)
        | none => .null } }

/-- The plan that comes of a range in two parts: the segments planned for each of them, joined
once more. -/
def planParts (s : Snapshot) (infos : Option (List (String × MediaInfo)))
    (rule : Option FilterRule) (start cut : Binary64) (stop : Option Binary64) :
    Except Fault (Option Joined) := do
  match ← (s.between start (some cut)).planSegments infos rule,
      ← (s.between cut stop).planSegments infos rule with
  | some first, some second =>
    let joined ← (joinSegments (s.ruleFor rule) (first.segments ++ second.segments)).run' []
    return some joined
  | _, _ => return none

variable {s : Snapshot} {infos : Option (List (String × MediaInfo))} {rule : Option FilterRule}
  {start cut : Binary64} {stop : Option Binary64}

/-- The end that a value gives: an infinite one leaves the range open. -/
def endOf (stop : Option Binary64) : Option Number :=
  (stop.filter (·.isFinite)).map fun x => ExportRange.startOf (some x)

theorem range?_between (s : Snapshot) (stop : Option Binary64)
    (hstart : Number.le 0 (.float start) = true) (hfinite : start.isFinite = true)
    (hstop : ∀ x ∈ stop, (Number.float start).lt (.float x) = true) :
    (s.between start stop).range? =
      .ok (some ⟨ExportRange.startOf (some start), endOf stop⟩) := by
  have hread : ∀ x : Binary64, finite? (.number (.float x)) =
      .ok (if x.isFinite then some x else none) := fun _ => rfl
  have hfirst : finite? (s.between start stop).settings.rangeStart = .ok (some start) :=
    (hread start).trans (congrArg Except.ok (if_pos hfinite))
  rcases stop with _ | x
  · rw [range?, ExportRange.ofSettings_eq hfirst rfl]
    rfl
  · by_cases hx : x.isFinite = true
    · have hlast : finite? (s.between start (some x)).settings.rangeEnd = .ok (some x) :=
        (hread x).trans (congrArg Except.ok (if_pos hx))
      rw [range?, ExportRange.ofSettings_eq hfirst hlast, endOf, Option.filter_some, if_pos hx]
      simp only [ExportRange.startOf_le_startOf hstart (hstop x rfl), Bool.false_eq_true,
        ↓reduceIte, Option.map_some]
    · have hlast : finite? (s.between start (some x)).settings.rangeEnd = .ok none :=
        (hread x).trans (congrArg Except.ok (if_neg hx))
      rw [range?, ExportRange.ofSettings_eq hfirst hlast, endOf, Option.filter_some, if_neg hx]
      rfl

/-- The resolved segments, from which the plans of all ranges are made. -/
theorem exists_resolved (infos : Option (List (String × MediaInfo)))
    (hids : (s.clips.map Clip.id).Nodup) (hwhole : ∀ c ∈ s.clips, c.WholeTimed) :
    ∃ segments b, Resolution (s.sources infos) s.clips segments b ∧
      ∀ rule start stop range, (s.between start stop).range? = .ok (some range) →
        (∃ p e, range.IsSet p e) ∧
          (s.between start stop).planSegments infos rule =
            (outcome (joinAll (s.ruleFor rule) (range.clip segments))).map some := by
  obtain ⟨stops, hstops⟩ := exists_stops_of_wholeTimed hwhole
  obtain ⟨segments, b, hresolve, hres⟩ := exists_resolution (s.sources infos) hids
    (fun c hc => (hwhole c hc).wellTimed) hstops
  refine ⟨segments, b, hres, ?_⟩
  intro rule start stop range hrange
  obtain ⟨p, e, hset⟩ := ExportRange.ofSettings_spec hrange
  exact ⟨⟨p, e, hset⟩, planSegments_eq (s := s.between start stop) (coherent_of_nodup hids)
    hresolve hrange (hres.cut hset).within⟩

/-- Where a range is divided, the segments inside its two parts are joined as those of the whole
range are. -/
theorem joinAll_parts (known : FilterRule) {sources : Sources} {clips : List Clip}
    {segments : List Segment} {x y : Number} {z : Option Number} {b p q q' e : Place}
    (hclips : Coherent clips) (hres : Resolution sources clips segments b)
    (hfirst : ExportRange.IsSet ⟨x, some y⟩ p q) (hsecond : ExportRange.IsSet ⟨y, z⟩ q' e) :
    ((joinAll known (ExportRange.clip ⟨x, some y⟩ segments)).bind fun j =>
        (joinAll known (ExportRange.clip ⟨y, z⟩ segments)).bind fun k =>
          joinAll known (j.segments ++ k.segments)) =
      joinAll known (ExportRange.clip ⟨x, z⟩ segments) := by
  obtain rfl : q = q' :=
    Option.some.inj ((hfirst.stop_eq y rfl).symm.trans hsecond.start_eq)
  have hall : ExportRange.IsSet ⟨x, z⟩ p e :=
    ⟨hfirst.toSpans.append hsecond.toSpans, hfirst.start_float, hsecond.stop_float,
      hfirst.nonneg, hfirst.lt.trans hsecond.lt⟩
  have hcut := hres.cut hall
  obtain ⟨n, hn⟩ : ∃ n, y.place? = some (.point n) := by
    cases q with
    | bottom => exact absurd hfirst.lt (not_lt.2 (Place.bottom_le p))
    | top => exact absurd hsecond.lt (not_lt.2 (Place.le_top e))
    | point n => exact ⟨n, hsecond.start_eq⟩
  rw [joinAll_append hclips (hres.cut hfirst).within (hres.cut hsecond).within]
  exact joinAll_of_halved hclips
    (ExportRange.clip_halved hfirst.toSpans hsecond.toSpans hfirst.lt hsecond.lt hres.tiles)
    (closeTimes_self hn) hcut.within fun u hu => (hcut.shows u hu).single

/-- Planning a range in two parts gives the plan of the whole range, or the same fault. -/
theorem planParts_eq (infos : Option (List (String × MediaInfo))) (rule : Option FilterRule)
    (hids : (s.clips.map Clip.id).Nodup) (hwhole : ∀ c ∈ s.clips, c.WholeTimed)
    (hstart : Number.le 0 (.float start) = true)
    (hcut : (Number.float start).lt (.float cut) = true) (hfinite : cut.isFinite = true)
    (hstop : ∀ x ∈ stop, (Number.float cut).lt (.float x) = true) :
    s.planParts infos rule start cut stop = (s.between start stop).planSegments infos rule := by
  have hclips := coherent_of_nodup hids
  have hcutStart : Number.le 0 (.float cut) = true :=
    Number.le_trans hstart (Number.le_of_lt hcut)
  have hstartFinite := Binary64.isFinite_of_lt hstart hcut
  obtain ⟨segments, b, hres, hplan⟩ := exists_resolved infos hids hwhole
  have hfirst := s.range?_between (some cut) hstart hstartFinite (by simpa using hcut)
  have hsecond := s.range?_between stop hcutStart hfinite hstop
  have hall := s.range?_between stop hstart hstartFinite
    fun x hx => Number.lt_trans hcut (hstop x hx)
  rw [endOf, Option.filter_some, if_pos hfinite, Option.map_some] at hfirst
  obtain ⟨⟨p, q, hset⟩, hplan₁⟩ := hplan rule start (some cut) _ hfirst
  obtain ⟨⟨q', e, hset'⟩, hplan₂⟩ := hplan rule cut stop _ hsecond
  obtain ⟨-, hplan₃⟩ := hplan rule start stop _ hall
  have hjoins := joinAll_parts (s.ruleFor rule) hclips hres hset hset'
  rw [planParts, hplan₁, hplan₂, hplan₃, ← hjoins]
  have hwithin₁ := (hres.cut hset).within
  have hwithin₂ := (hres.cut hset').within
  rcases hj : joinAll (s.ruleFor rule) (ExportRange.clip ⟨_, _⟩ segments) with _ | first
  · rfl
  rcases hk : joinAll (s.ruleFor rule) (ExportRange.clip ⟨_, endOf stop⟩ segments) with _ | second
  · rfl
  have hrun : (joinSegments (s.ruleFor rule) (first.segments ++ second.segments)).run' [] =
      outcome (joinAll (s.ruleFor rule) (first.segments ++ second.segments)) :=
    (answers_joinSegments hclips (List.forall_mem_append.2
      ⟨within_of_joinAll hclips hwithin₁ hj, within_of_joinAll hclips hwithin₂ hk⟩)).run'_eq
  simp only [outcome, Except.map, bind, Except.bind, Option.bind_some, hrun]
  cases joinAll (s.ruleFor rule) (first.segments ++ second.segments) <;> rfl

/-- Exporting a range in two parts loses nothing where they meet: what is planned for each of them,
joined once more, is the plan of the whole range.  Only a number beyond the range of binary64 can
leave the whole range, and then its parts too, without a plan. -/
theorem planParts_whole (infos : Option (List (String × MediaInfo))) (rule : Option FilterRule)
    (start cut : Binary64) (stop : Option Binary64) (hids : (s.clips.map Clip.id).Nodup)
    (hwhole : ∀ c ∈ s.clips, c.WholeTimed)
    (hstart : Number.le 0 (.float start) = true)
    (hcut : (Number.float start).lt (.float cut) = true) (hfinite : cut.isFinite = true)
    (hstop : ∀ x ∈ stop, (Number.float cut).lt (.float x) = true) :
    ((∃ joined, s.planParts infos rule start cut stop = .ok (some joined) ∧
          (s.between start stop).planSegments infos rule = .ok (some joined)) ∨
        s.planParts infos rule start cut stop = .error .integerTooLarge ∧
          (s.between start stop).planSegments infos rule = .error .integerTooLarge) ∧
      ((∀ c ∈ s.clips, c.HasSource ∧ (s.ruleFor rule c).HasVolume) →
        ∃ joined, s.planParts infos rule start cut stop = .ok (some joined)) := by
  rw [planParts_eq infos rule hids hwhole hstart hcut hfinite hstop]
  have hrange := s.range?_between stop hstart (Binary64.isFinite_of_lt hstart hcut)
    fun x hx => Number.lt_trans hcut (hstop x hx)
  obtain ⟨segments, a, b, hprepared⟩ :=
    exists_prepared (s := s.between start stop) infos hids hwhole hrange
  rw [hprepared.plan_eq]
  constructor
  · rcases joinAll ((s.between start stop).ruleFor rule) segments with _ | joined
    · exact Or.inr ⟨rfl, rfl⟩
    · exact Or.inl ⟨joined, rfl, rfl⟩
  · intro hfits
    obtain ⟨joined, hjoined⟩ :
        ∃ joined, joinAll ((s.between start stop).ruleFor rule) segments = some joined :=
      hprepared.exists_joinAll hwhole (fun c hc => (hfits c hc).1) fun c hc => (hfits c hc).2
    exact ⟨joined, by rw [hjoined]; rfl⟩

end Snapshot

/-- The times from the middle of the first half of a film on, in two parts that meet inside it. -/
theorem planParts_of_wholeFilm :
    (wholeFilm.clips.map Clip.id).Nodup ∧ (∀ c ∈ wholeFilm.clips, c.WholeTimed) ∧
      ∃ joined, wholeFilm.planParts none none (.ofInt 500) (.ofInt 700) none = .ok (some joined) ∧
        (wholeFilm.between (.ofInt 500) none).planSegments none none = .ok (some joined) ∧
        joined.segments.map (fun g => (g.start, g.stop)) =
          [(.float (.ofInt 500), 2000)] := by
  have hids : (wholeFilm.clips.map Clip.id).Nodup := by decide
  have hwhole : ∀ c ∈ wholeFilm.clips, c.WholeTimed :=
    List.forall_mem_cons.2 ⟨halves_whole.1.wholeTimed,
      List.forall_mem_singleton.2 halves_whole.2.wholeTimed⟩
  obtain ⟨hplans, -⟩ := Snapshot.planParts_whole none none (.ofInt 500) (.ofInt 700) none hids
    hwhole (by decide +kernel) (by decide +kernel) (by decide +kernel) (by simp)
  have hbounds : ((wholeFilm.between (.ofInt 500) none).planSegments none none).map
      (·.map fun j => j.segments.map fun g => (g.start, g.stop)) =
        .ok (some [(.float (.ofInt 500), 2000)]) := by
    decide +kernel
  obtain ⟨plan, hplan, hmap⟩ := exists_of_map_eq hbounds
  rcases hplans with ⟨joined, hparts, hwholePlan⟩ | ⟨-, hfault⟩
  · obtain rfl : plan = joined :=
      Option.some.inj (Except.ok.inj (hplan.symm.trans hwholePlan))
    exact ⟨hids, hwhole, plan, hparts, hwholePlan, hmap⟩
  · simp [hplan] at hfault

/-- A range that should begin at infinity is not limited at all.  So the film is planned for both
parts, and joining them puts one plan after the other. -/
theorem planParts_twice :
    (wholeFilm.clips.map Clip.id).Nodup ∧ (∀ c ∈ wholeFilm.clips, c.WholeTimed) ∧
      Number.le 0 (.float .zero) = true ∧
      (Number.float .zero).lt (.float (.infinity false)) = true ∧
      (wholeFilm.planParts none none .zero (.infinity false) none).map
          (·.map fun j => j.segments.map fun g => (g.start, g.stop)) =
        .ok (some [(0, 2000), (0, 2000)]) ∧
      ((wholeFilm.between .zero none).planSegments none none).map
          (·.map fun j => j.segments.map fun g => (g.start, g.stop)) =
        .ok (some [(0, 2000)]) := by
  refine ⟨by decide, List.forall_mem_cons.2 ⟨halves_whole.1.wholeTimed,
    List.forall_mem_singleton.2 halves_whole.2.wholeTimed⟩, by decide +kernel, by decide +kernel,
    by decide +kernel, by decide +kernel⟩

end Montage
