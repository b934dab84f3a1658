import Montage.Proofs.Timeline.Renaming
import Montage.Proofs.Timeline.Source

/-!
A clip that is split in two at a whole time.

The parts take turns: up to the time of the split the first one plays, from then on the second, and
each plays what the clip would have played.  So at every instant the parts win where the clip wins.
-/

namespace Montage

/-- A timeline of whole clips, with a clip to split, the time at which to do so, and ids for the two
parts.  The clip is not reversed, and no other clip starts or ends at the time of the split. -/
structure ClipSplit where
  front : List Clip
  clip : Clip
  back : List Clip
  start : Int
  length : Int
  trim : Int
  speed : Int
  time : Int
  firstId : String
  secondId : String
  counts : clip.Counts start length trim speed
  forward : clip.reversed = false
  nonneg : 0 ≤ start
  one_le_speed : 1 ≤ speed
  started : start < time
  unfinished : time < start + length
  others_whole : ∀ d ∈ front ++ back, d.Whole
  others_apart : ∀ d ∈ front ++ back, d.start ≠ .int time ∧ d.stop ≠ .ok (.int time)
  ids : (front.map Clip.id ++ clip.id :: back.map Clip.id).Nodup
  part_ids : (front.map Clip.id ++ firstId :: secondId :: back.map Clip.id).Nodup

namespace ClipSplit

variable (k : ClipSplit)

/-- The clip up to the time of the split. -/
def first : Clip := { k.clip with id := k.firstId, duration := .int (k.time - k.start) }

/-- The clip from the time of the split on. -/
def second : Clip :=
  { k.clip with
    id := k.secondId
    start := .int k.time
    duration := .int (k.start + k.length - k.time)
    trimStart := some (.int (k.trim + (k.time - k.start) * k.speed)) }

/-- The timeline before the split. -/
def whole : List Clip := k.front ++ k.clip :: k.back

/-- The timeline after the split. -/
def parts : List Clip := k.front ++ k.first :: k.second :: k.back

/-- The clips that are not split. -/
def others : List Clip := k.front ++ k.back

/-- The clip in place of its parts. -/
def read (d : Clip) : Clip := if d.id = k.firstId ∨ d.id = k.secondId then k.clip else d

variable {k} {d : Clip}

theorem mem_whole : d ∈ k.whole ↔ d = k.clip ∨ d ∈ k.others := by
  simp only [whole, others, List.mem_append, List.mem_cons]
  tauto

theorem mem_parts : d ∈ k.parts ↔ d = k.first ∨ d = k.second ∨ d ∈ k.others := by
  simp only [parts, others, List.mem_append, List.mem_cons]
  tauto

theorem counts_first : k.first.Counts k.start (k.time - k.start) k.trim k.speed :=
  ⟨k.counts.start_eq, rfl, k.counts.trim_eq, k.counts.speed_eq⟩

theorem counts_second : k.second.Counts k.time (k.start + k.length - k.time)
    (k.trim + (k.time - k.start) * k.speed) k.speed := by
  refine ⟨rfl, rfl, ?_, k.counts.speed_eq⟩
  simp only [Clip.trim, second]
  split
  · next hzero =>
      rw [Number.isZero, show (0 : Number) = .int 0 from rfl, Number.int_eq_int] at hzero
      rw [hzero]
      rfl
  · rfl

theorem whole_clip : k.clip.Whole :=
  ⟨⟨k.start, k.counts.start_eq, k.nonneg⟩,
    ⟨k.length, k.counts.duration_eq, by have := k.started; have := k.unfinished; omega⟩,
    ⟨k.trim, k.counts.trim_eq⟩, k.speed, k.counts.speed_eq, k.one_le_speed⟩

theorem whole_first : k.first.Whole :=
  ⟨⟨k.start, k.counts.start_eq, k.nonneg⟩, ⟨_, rfl, sub_pos.2 k.started⟩,
    ⟨k.trim, k.counts.trim_eq⟩, k.speed, k.counts.speed_eq, k.one_le_speed⟩

theorem whole_second : k.second.Whole :=
  ⟨⟨k.time, rfl, k.nonneg.trans k.started.le⟩, ⟨_, rfl, sub_pos.2 k.unfinished⟩,
    ⟨_, counts_second.trim_eq⟩, k.speed, k.counts.speed_eq, k.one_le_speed⟩

theorem forall_whole : ∀ d ∈ k.whole, d.Whole := by
  intro d hd
  rcases mem_whole.1 hd with rfl | hd
  · exact whole_clip
  · exact k.others_whole d hd

theorem forall_parts_whole : ∀ d ∈ k.parts, d.Whole := by
  intro d hd
  rcases mem_parts.1 hd with rfl | rfl | hd
  · exact whole_first
  · exact whole_second
  · exact k.others_whole d hd

theorem nodup_whole : (k.whole.map Clip.id).Nodup := by
  rw [whole, List.map_append, List.map_cons]
  exact k.ids

theorem nodup_parts : (k.parts.map Clip.id).Nodup := by
  rw [parts, List.map_append, List.map_cons, List.map_cons]
  exact k.part_ids

/-- The ids of the parts are new, and not the same. -/
theorem part_ids_apart : k.firstId ≠ k.secondId ∧
    ∀ d ∈ k.others, d.id ≠ k.firstId ∧ d.id ≠ k.secondId := by
  have hids := k.part_ids
  rw [List.nodup_middle, List.nodup_cons, List.nodup_middle, List.nodup_cons,
    List.perm_middle.mem_iff, List.mem_cons, not_or, ← List.map_append] at hids
  obtain ⟨⟨hne, hfirst⟩, hsecond, -⟩ := hids
  refine ⟨hne, fun d hd => ⟨?_, ?_⟩⟩
  · exact fun h => hfirst (h ▸ List.mem_map_of_mem hd)
  · exact fun h => hsecond (h ▸ List.mem_map_of_mem hd)

theorem clip_id_apart : ∀ d ∈ k.others, d.id ≠ k.clip.id := by
  have hids := k.ids
  rw [List.nodup_middle, List.nodup_cons, ← List.map_append] at hids
  exact fun d hd h => hids.1 (h ▸ List.mem_map_of_mem hd)

@[simp] theorem read_first : k.read k.first = k.clip := if_pos (Or.inl rfl)

@[simp] theorem read_second : k.read k.second = k.clip := if_pos (Or.inr rfl)

theorem read_of_mem_others (hd : d ∈ k.others) : k.read d = d := by
  obtain ⟨hfirst, hsecond⟩ := part_ids_apart.2 d hd
  exact if_neg (not_or.2 ⟨hfirst, hsecond⟩)

theorem byIds_read : ByIds k.read := by
  intro c d hid
  rw [read, read, hid]
  split
  · rfl
  · exact hid

theorem read_mem (hd : d ∈ k.parts) : k.read d ∈ k.whole := by
  rcases mem_parts.1 hd with rfl | rfl | hd
  · exact mem_whole.2 (Or.inl read_first)
  · exact mem_whole.2 (Or.inl read_second)
  · rw [read_of_mem_others hd]
    exact mem_whole.2 (Or.inr hd)

/-- But for ids and times, the parts are copies of the clip. -/
structure Copies (c d : Clip) : Prop where
  media_eq : c.mediaId = d.mediaId
  track_eq : c.track = d.track
  speed_eq : c.playSpeed = d.playSpeed
  reversed_eq : c.reversed = d.reversed
  muted_eq : c.muted = d.muted
  visible_eq : c.visible = d.visible

theorem copies_read (hd : d ∈ k.parts) : Copies (k.read d) d := by
  rcases mem_parts.1 hd with rfl | rfl | hd
  · rw [read_first]
    exact ⟨rfl, rfl, rfl, rfl, rfl, rfl⟩
  · rw [read_second]
    exact ⟨rfl, rfl, rfl, rfl, rfl, rfl⟩
  · rw [read_of_mem_others hd]
    exact ⟨rfl, rfl, rfl, rfl, rfl, rfl⟩

section Winners

variable {sources : Sources} {t : Instant} {channel : Channel}

theorem isOn_clip : k.clip.isOn t = true ↔ k.start ≤ t ∧ t < (k.start + k.length : Int) :=
  Clip.isOn_int k.counts.start_eq k.counts.stop_eq

theorem isOn_first : k.first.isOn t = true ↔ k.start ≤ t ∧ t < k.time := by
  rw [Clip.isOn_int counts_first.start_eq counts_first.stop_eq, add_sub_cancel]

theorem isOn_second :
    k.second.isOn t = true ↔ k.time ≤ t ∧ t < (k.start + k.length : Int) := by
  rw [Clip.isOn_int counts_second.start_eq counts_second.stop_eq, add_sub_cancel]

/-- One of the parts plays at a time, when the clip would. -/
theorem isOn_parts : k.first.isOn t = (k.clip.isOn t && decide (t < k.time)) ∧
    k.second.isOn t = (k.clip.isOn t && decide (k.time ≤ t)) := by
  have hstarted : (k.start : ℚ) < k.time := Int.cast_lt.2 k.started
  have hunfinished : (k.time : ℚ) < (k.start + k.length : Int) := Int.cast_lt.2 k.unfinished
  constructor
  · rw [Bool.eq_iff_iff, Bool.and_eq_true, decide_eq_true_eq, isOn_first, isOn_clip]
    exact ⟨fun h => ⟨⟨h.1, h.2.trans hunfinished⟩, h.2⟩, fun h => ⟨h.1.1, h.2⟩⟩
  · rw [Bool.eq_iff_iff, Bool.and_eq_true, decide_eq_true_eq, isOn_second, isOn_clip]
    exact ⟨fun h => ⟨⟨hstarted.le.trans h.1, h.2⟩, h.1⟩, fun h => ⟨h.2, h.1.2⟩⟩

theorem candidates_append (first second : List Clip) :
    candidates sources (first ++ second) t channel =
      candidates sources first t channel ++ candidates sources second t channel := by
  cases channel <;> exact List.filter_append _ _

theorem map_read_candidates_others {clips : List Clip} (h : clips ⊆ k.others) :
    (candidates sources clips t channel).map k.read = candidates sources clips t channel := by
  have hread : ∀ d ∈ candidates sources clips t channel, k.read d = id d :=
    fun d hd => read_of_mem_others (h (candidates_subset hd))
  rw [List.map_congr_left hread, List.map_id]

/-- The part that plays may win where the clip may. -/
theorem map_read_candidates_pair : (candidates sources [k.first, k.second] t channel).map k.read =
    candidates sources [k.clip] t channel := by
  have hfirst : (k.first.visible && sources.hasPicture k.first) =
      (k.clip.visible && sources.hasPicture k.clip) := rfl
  have hsecond : (k.second.visible && sources.hasPicture k.second) =
      (k.clip.visible && sources.hasPicture k.clip) := rfl
  obtain ⟨hon, hon'⟩ := k.isOn_parts (t := t)
  rcases lt_or_ge t k.time with hlt | hge
  · rw [decide_eq_true hlt, Bool.and_true] at hon
    rw [decide_eq_false (not_le.2 hlt), Bool.and_false] at hon'
    cases channel <;> simp only [candidates, List.filter_cons, List.filter_nil, hon, hon', hfirst,
      Bool.false_and, Bool.false_eq_true, ↓reduceIte] <;> split <;> simp
  · rw [decide_eq_false (not_lt.2 hge), Bool.and_false] at hon
    rw [decide_eq_true hge, Bool.and_true] at hon'
    cases channel <;> simp only [candidates, List.filter_cons, List.filter_nil, hon, hon', hsecond,
      Bool.false_and, Bool.false_eq_true, ↓reduceIte] <;> split <;> simp

theorem map_read_candidates :
    (candidates sources k.parts t channel).map k.read = candidates sources k.whole t channel := by
  have hparts : k.parts = k.front ++ ([k.first, k.second] ++ k.back) := rfl
  have hwhole : k.whole = k.front ++ ([k.clip] ++ k.back) := rfl
  rw [hparts, hwhole]
  simp only [candidates_append, List.map_append, map_read_candidates_pair,
    map_read_candidates_others (List.subset_append_left k.front k.back),
    map_read_candidates_others (List.subset_append_right k.front k.back)]

end Winners

end ClipSplit

namespace ClipSplit

variable {k : ClipSplit} {sources : Sources}

/-- At every instant a part wins where the clip wins. -/
theorem winner_parts (t : Instant) (channel : Channel) :
    (topmost? (candidates sources k.parts t channel)).map k.read =
      topmost? (candidates sources k.whole t channel) := by
  rw [← map_read_candidates, topmost?_map]
  intro d hd
  exact (copies_read (candidates_subset hd)).track_eq

/-- No clip starts or ends at the time of the split. -/
theorem apart : ∀ d ∈ k.whole, d.start ≠ .int k.time ∧ d.stop ≠ .ok (.int k.time) := by
  intro d hd
  rcases mem_whole.1 hd with rfl | hd
  · rw [k.counts.start_eq, k.counts.stop_eq]
    refine ⟨?_, ?_⟩
    · intro h
      exact k.started.ne (Number.int.inj h)
    · intro h
      exact k.unfinished.ne' (Number.int.inj (Except.ok.inj h))
  · exact k.others_apart d hd

/-- The clips that play when the clip is split have played just before. -/
theorem isOn_across {t : Instant} (hle : (k.time : ℚ) - 1 ≤ t) (hlt : t < k.time) {d : Clip}
    (hd : d ∈ k.whole) : d.isOn t = d.isOn k.time := by
  obtain ⟨start, length, trim, speed, hcounts⟩ := (forall_whole d hd).exists_counts
  obtain ⟨hstart, hstop⟩ := apart d hd
  rw [hcounts.start_eq, ne_eq, Number.int.injEq] at hstart
  rw [hcounts.stop_eq, ne_eq, Except.ok.injEq, Number.int.injEq] at hstop
  rw [Bool.eq_iff_iff, Clip.isOn_int hcounts.start_eq hcounts.stop_eq,
    Clip.isOn_int hcounts.start_eq hcounts.stop_eq, Int.cast_le, Int.cast_lt]
  constructor
  · rintro ⟨hreached, hended⟩
    have hbefore : start < k.time := Int.cast_lt.1 (hreached.trans_lt hlt)
    have hafter : k.time - 1 < start + length := by
      rw [← Int.cast_lt (R := ℚ)]
      push_cast at hended ⊢
      exact hle.trans_lt hended
    omega
  · rintro ⟨hreached, hended⟩
    have hbefore : start ≤ k.time - 1 := by omega
    refine ⟨?_, hlt.trans (Int.cast_lt.2 hended)⟩
    rw [← Int.cast_le (R := ℚ)] at hbefore
    push_cast at hbefore
    exact hbefore.trans hle

/-- Whoever wins when the clip is split has won just before. -/
theorem winner_across {t : Instant} (hle : (k.time : ℚ) - 1 ≤ t) (hlt : t < k.time)
    (channel : Channel) :
    topmost? (candidates sources k.whole t channel) =
      topmost? (candidates sources k.whole k.time channel) := by
  have hsame : candidates sources k.whole t channel =
      candidates sources k.whole k.time channel := by
    cases channel <;> refine List.filter_congr fun d hd => ?_ <;> rw [isOn_across hle hlt hd]
  rw [hsame]

end ClipSplit

end Montage
