import Montage.Proofs.Export.Playback
import Montage.Proofs.Number.Fits
import Montage.Proofs.Timeline.ClipSplit
import Montage.Proofs.Timeline.Halving

/-!
Joints beside the parts of a clip that is split.

The parts have the start, the end and the line through the source of the clip, and no other clip
starts or ends where it is split.  So at every seam they go on, or are kept apart, as the clip is;
and where the first part ends, the second one continues it.
-/

namespace Montage

/-- A volume that can be read and agrees with itself is the same as itself. -/
theorem sameVolume_self {v : Document} (hread : ∃ x, finite? v = .ok x)
    (h : v.agrees v = true) : sameVolume v v = .ok true := by
  obtain ⟨x, hx⟩ := hread
  rcases x with _ | x
  · simp only [sameVolume, hx, bind, Except.bind, h, pure, Except.pure]
  · obtain ⟨n, hn⟩ := ExportRange.place?_of_finite? hx
    have hle : (Number.float .zero).le volumeTolerance = true := by decide +kernel
    simp only [sameVolume, hx, bind, Except.bind, Binary64.abs_sub_self hn, hle, pure, Except.pure]

/-- Filters without a NaN, and a volume that can be read and is no NaN. -/
structure Effective.Settled (e : Effective) : Prop extends e.NoNaN where
  hasVolume : e.HasVolume
  volume_agrees : e.volume.agrees e.volume = true

/-- A volume that is a number within the range of binary64, and no NaN, is settled. -/
theorem Effective.Settled.of_number {e : Effective} {x : Number} (hfilters : e.NoNaN)
    (hvolume : e.volume = .number x) (hfits : x.Fits) (hnumber : x.isNaN = false) : e.Settled := by
  refine ⟨hfilters, ?_, ?_⟩
  · obtain ⟨y, hy⟩ := hfits
    rw [Effective.HasVolume, hvolume]
    simp only [finite?, bind_eq_ok]
    exact ⟨_, y, hy, rfl⟩
  · rw [hvolume]
    simp only [Document.agrees, Document.number?, Number.eq_self hnumber]

section Rendering

variable {rule : FilterRule} {channel : Channel} {p n : Clip}

/-- Clips with the same filters look and sound the same. -/
theorem sameRendering_of_eq (hrule : rule p = rule n) (hsettled : (rule n).Settled)
    (hmuted : p.muted = n.muted)
    (hseen : channel = .video → p.visible = true ∧ n.visible = true) :
    sameRendering channel p n (rule p) (rule n) = .ok true := by
  rw [hrule]
  cases channel with
  | video =>
      obtain ⟨hp, hn⟩ := hseen rfl
      simp only [sameRendering, hp, hn, hsettled.video.agrees_self, Bool.and_self]
  | audio =>
      have hvolume := sameVolume_self hsettled.hasVolume hsettled.volume_agrees
      simp only [sameRendering, hmuted, bne_self_eq_false, hsettled.audio.agrees_self,
        Bool.not_true, Bool.false_eq_true, ↓reduceIte, hvolume]

end Rendering

theorem eq_of_ok_true_iff {x y : Except Fault Bool} (hx : ∃ b, x = .ok b) (hy : ∃ b, y = .ok b)
    (h : x = .ok true ↔ y = .ok true) : x = y := by
  obtain ⟨b, rfl⟩ := hx
  obtain ⟨b', rfl⟩ := hy
  rw [Except.ok.injEq, Except.ok.injEq] at h
  rw [Bool.eq_iff_iff.2 h]

/-- A decision asks for the ids of two clips, for a seam between them, and for how they look or
sound. -/
theorem Decision.between_congr {rule : FilterRule} {p p' n n' : Clip} {boundary : Number}
    {channel : Channel} (hid : p'.id = n'.id ↔ p.id = n.id)
    (hseamless : seamless p' n' boundary = seamless p n boundary)
    (hrendering : sameRendering channel p' n' (rule p') (rule n') =
      sameRendering channel p n (rule p) (rule n)) :
    between rule (some p') (some n') boundary channel =
      between rule (some p) (some n) boundary channel := by
  simp only [between, hseamless, hrendering, beq_iff_eq, hid]

namespace ClipSplit

/-- Neighbours among the parts of the timeline that meet at a whole time.  What ends there and what
starts there lies where a part does, and where the clip is split it goes on. -/
structure MeetsAt (k : ClipSplit) (m : Int) (s t : Segment) : Prop where
  within_left : s.Within k.parts
  within_right : t.Within k.parts
  stop_eq : s.stop = .int m
  start_eq : t.start = .int m
  seen : ∀ c ∈ s.tail? .video, c.visible = true
  first_ends : ∀ channel, s.tail? channel = some k.first → m ≤ k.time
  second_lasts : ∀ channel, s.tail? channel = some k.second → k.time < m
  first_lasts : ∀ channel, t.winner? channel = some k.first → m < k.time
  second_starts : ∀ channel, t.winner? channel = some k.second → k.time ≤ m
  goes_on : m = k.time →
    ∀ channel, (s.tail? channel).map k.read = (t.winner? channel).map k.read

/-- Neighbours that meet at some whole time. -/
def Meets (k : ClipSplit) (s t : Segment) : Prop := ∃ m, k.MeetsAt m s t

variable {k : ClipSplit} {rule : FilterRule} {channel : Channel} {p n d : Clip} {m z : Int}
  {s t u : Segment}

/-- Away from the split, a part ends where the clip does. -/
theorem endsAt_read (hd : d ∈ k.parts) (h : d = k.first → m < k.time) :
    (k.read d).EndsAt m z ↔ d.EndsAt m z := by
  have hunfinished := k.unfinished
  rcases mem_parts.1 hd with rfl | rfl | hd
  · have hm := h rfl
    rw [read_first, k.counts.endsAt_iff, counts_first.endsAt_iff]
    omega
  · have hsource : k.trim + (k.time - k.start) * k.speed +
        (k.start + k.length - k.time) * k.speed = k.trim + k.length * k.speed := by ring
    rw [read_second, k.counts.endsAt_iff, counts_second.endsAt_iff, hsource, add_sub_cancel]
  · rw [read_of_mem_others hd]

/-- Away from the split, a part starts where the clip does. -/
theorem startsAt_read (hd : d ∈ k.parts) (h : d = k.second → k.time < m) :
    (k.read d).StartsAt m z ↔ d.StartsAt m z := by
  have hstarted := k.started
  rcases mem_parts.1 hd with rfl | rfl | hd
  · rw [read_first, k.counts.startsAt_iff, counts_first.startsAt_iff]
  · have hm := h rfl
    rw [read_second, k.counts.startsAt_iff, counts_second.startsAt_iff]
    omega
  · rw [read_of_mem_others hd]

/-- Away from the split, there is a seam beside a part where there is one beside the clip. -/
theorem seamless_read (hp : p ∈ k.parts) (hn : n ∈ k.parts) (hfirst : p = k.first → m < k.time)
    (hsecond : n = k.second → k.time < m) :
    seamless (k.read p) (k.read n) (.int m) = seamless p n (.int m) := by
  have hwhole : ∀ d ∈ k.parts, (k.read d).Whole := fun d hd => forall_whole _ (read_mem hd)
  refine eq_of_ok_true_iff (exists_seamless (hwhole p hp) (hwhole n hn) m)
    (exists_seamless (forall_parts_whole p hp) (forall_parts_whole n hn) m) ?_
  have hcopies := copies_read hp
  have hcopies' := copies_read hn
  rw [seamless_iff (hwhole p hp) (hwhole n hn),
    seamless_iff (forall_parts_whole p hp) (forall_parts_whole n hn), hcopies.media_eq,
    hcopies'.media_eq, hcopies.speed_eq, hcopies'.speed_eq, hcopies.reversed_eq,
    hcopies'.reversed_eq]
  simp only [endsAt_read hp hfirst, startsAt_read hn hsecond]

theorem read_of_ne_clip (hd : d ∈ k.parts) (h : k.read d ≠ k.clip) : k.read d = d := by
  rcases mem_parts.1 hd with rfl | rfl | hd
  · exact absurd read_first h
  · exact absurd read_second h
  · exact read_of_mem_others hd

/-- Whoever reads as the clip is one of its parts. -/
theorem read_eq_clip_iff (hd : d ∈ k.parts) : k.read d = k.clip ↔ d = k.first ∨ d = k.second := by
  constructor
  · intro h
    rcases mem_parts.1 hd with hfirst | hsecond | hd
    · exact Or.inl hfirst
    · exact Or.inr hsecond
    · rw [read_of_mem_others hd] at h
      exact absurd (congrArg Clip.id h) (clip_id_apart d hd)
  · rintro (rfl | rfl)
    · exact read_first
    · exact read_second

theorem eq_of_read_eq (hp : p ∈ k.parts) (hn : n ∈ k.parts) (h : k.read p = k.read n) :
    p = n ∨ (p = k.first ∨ p = k.second) ∧ (n = k.first ∨ n = k.second) := by
  by_cases hclip : k.read p = k.clip
  · exact Or.inr ⟨(read_eq_clip_iff hp).1 hclip, (read_eq_clip_iff hn).1 (h.symm.trans hclip)⟩
  · have hclip' : k.read n ≠ k.clip := fun heq => hclip (h.trans heq)
    rw [read_of_ne_clip hp hclip, read_of_ne_clip hn hclip'] at h
    exact Or.inl h

section Rule

variable (hrule : rule k.first = rule k.clip ∧ rule k.second = rule k.clip)
include hrule

/-- The parts have the filters of the clip. -/
theorem rule_read (hd : d ∈ k.parts) : rule (k.read d) = rule d := by
  rcases mem_parts.1 hd with rfl | rfl | hd
  · rw [read_first, hrule.1]
  · rw [read_second, hrule.2]
  · rw [read_of_mem_others hd]

/-- Where the clip is split, the second part continues the first one. -/
theorem between_parts (hsettled : (rule k.clip).Settled)
    (hseen : channel = .video → k.clip.visible = true) :
    Decision.between rule (some k.first) (some k.second) (.int k.time) channel =
      .ok .continuous := by
  have hid : (k.first.id == k.second.id) = false := beq_false_of_ne part_ids_apart.1
  have hseam : seamless k.first k.second (.int k.time) = .ok true := by
    refine (seamless_iff whole_first whole_second).2
      ⟨rfl, rfl, k.forward, k.forward, k.trim + (k.time - k.start) * k.speed, ?_, ?_⟩
    · exact counts_first.endsAt_iff.2 ⟨by omega, rfl⟩
    · exact counts_second.startsAt_iff.2 ⟨rfl, rfl⟩
  have hrendering : sameRendering channel k.first k.second (rule k.first) (rule k.second) =
      .ok true := by
    refine sameRendering_of_eq (hrule.1.trans hrule.2.symm) ?_ rfl fun h => ⟨hseen h, hseen h⟩
    rw [hrule.2]
    exact hsettled
  simp only [Decision.between, hid, hseam, hrendering, bind, Except.bind, Bool.false_eq_true,
    ↓reduceIte, pure, Except.pure]

/-- Away from the split, a channel goes on from a part, or to one, as with the clip in its
place. -/
theorem MeetsAt.between_read (h : k.MeetsAt m s t) (hne : m ≠ k.time) (channel : Channel) :
    Decision.between rule ((s.tail? channel).map k.read) ((t.winner? channel).map k.read) (.int m)
        channel =
      Decision.between rule (s.tail? channel) (t.winner? channel) (.int m) channel := by
  rcases hp : s.tail? channel with _ | p <;> rcases hn : t.winner? channel with _ | n
  · rfl
  · rfl
  · rfl
  · have hpmem : p ∈ k.parts := h.within_left channel p (List.mem_of_getLast? hp)
    have hnmem : n ∈ k.parts := h.within_right channel n (List.mem_of_head? hn)
    have hfirst : p = k.first → m < k.time := fun heq =>
      lt_of_le_of_ne (h.first_ends channel (heq ▸ hp)) hne
    have hsecond : p = k.second → k.time < m := fun heq => h.second_lasts channel (heq ▸ hp)
    have hfirst' : n = k.first → m < k.time := fun heq => h.first_lasts channel (heq ▸ hn)
    have hsecond' : n = k.second → k.time < m := fun heq =>
      lt_of_le_of_ne (h.second_starts channel (heq ▸ hn)) hne.symm
    refine Decision.between_congr ⟨?_, byIds_read p n⟩
      (seamless_read hpmem hnmem hfirst hsecond') ?_
    · intro hid
      have heq : k.read p = k.read n := coherent_of_nodup nodup_whole _ (read_mem hpmem) _
        (read_mem hnmem) hid
      rcases eq_of_read_eq hpmem hnmem heq with rfl | ⟨hp | hp, hn | hn⟩
      · rfl
      · rw [hp, hn]
      · exact absurd (hfirst hp) (hsecond' hn).not_gt
      · exact absurd (hsecond hp) (hfirst' hn).not_gt
      · rw [hp, hn]
    · have hcopies := copies_read hpmem
      have hcopies' := copies_read hnmem
      rw [rule_read hrule hpmem, rule_read hrule hnmem]
      cases channel <;> simp only [sameRendering, hcopies.visible_eq, hcopies'.visible_eq,
        hcopies.muted_eq, hcopies'.muted_eq]

/-- Where the clip is split, both channels go on. -/
theorem MeetsAt.goes_on_parts (h : k.MeetsAt m s t) (hm : m = k.time)
    (hsettled : (rule k.clip).Settled) (channel : Channel) :
    ∃ d, Decision.between rule (s.tail? channel) (t.winner? channel) (.int m) channel = .ok d ∧
      d.agrees = true := by
  have hread := h.goes_on hm channel
  rcases hp : s.tail? channel with _ | p <;> rcases hn : t.winner? channel with _ | n
  · exact ⟨.empty, rfl, rfl⟩
  · rw [hp, hn] at hread
    simp only [Option.map_none, Option.map_some, reduceCtorEq] at hread
  · rw [hp, hn] at hread
    simp only [Option.map_none, Option.map_some, reduceCtorEq] at hread
  · rw [hp, hn, Option.map_some, Option.map_some, Option.some.injEq] at hread
    have hpmem : p ∈ k.parts := h.within_left channel p (List.mem_of_getLast? hp)
    have hnmem : n ∈ k.parts := h.within_right channel n (List.mem_of_head? hn)
    rcases eq_of_read_eq hpmem hnmem hread with rfl | ⟨hpart, hpart'⟩
    · refine ⟨.sameClip, ?_, rfl⟩
      simp only [Decision.between, beq_self_eq_true, ↓reduceIte]
    · have hfirst : p = k.first := hpart.resolve_right fun heq =>
        absurd (h.second_lasts channel (heq ▸ hp)) hm.not_gt
      have hsecond : n = k.second := hpart'.resolve_left fun heq =>
        absurd (h.first_lasts channel (heq ▸ hn)) hm.not_lt
      subst hfirst hsecond hm
      refine ⟨.continuous, between_parts hrule hsettled ?_, rfl⟩
      rintro rfl
      exact h.seen k.first hp

/-- A joint says the same of neighbours with the clip in place of its parts. -/
theorem MeetsAt.joint_renamed (h : k.MeetsAt m s t) (hsettled : (rule k.clip).Settled) :
    joint rule (s.renamed k.read) (t.renamed k.read) = joint rule s t := by
  have htail : ∀ channel, (s.renamed k.read).tail? channel = (s.tail? channel).map k.read :=
    Segment.tail?_renamed (coherent_of_nodup nodup_whole)
      fun channel c hc => read_mem (h.within_left channel c hc)
  have hwinner := t.winner?_renamed (f := k.read)
  have hstop : (s.renamed k.read).stop = .int m := h.stop_eq
  have hstart : (t.renamed k.read).start = .int m := h.start_eq
  by_cases hm : m = k.time
  · have hclose : closeTimes (.int m) (.int m) = .ok true := by
      rw [closeTimes_int, decide_eq_true rfl]
    have hjoined : joint rule s t = some .joined := by
      refine joint_of_agrees (by rw [h.stop_eq, h.start_eq, hclose]) fun channel => ?_
      rw [h.start_eq]
      exact h.goes_on_parts hrule hm hsettled channel
    rw [hjoined]
    refine joint_of_agrees (by rw [hstop, hstart, hclose]) fun channel => ?_
    rw [htail, hwinner, hstart, ← h.goes_on hm channel]
    cases s.tail? channel with
    | none => exact ⟨.empty, rfl, rfl⟩
    | some c =>
        refine ⟨.sameClip, ?_, rfl⟩
        simp only [Option.map_some, Decision.between, beq_self_eq_true, ↓reduceIte]
  · simp only [joint, hstop, hstart, h.stop_eq, h.start_eq, htail, hwinner,
      h.between_read hrule hm]

omit hrule in
/-- What meets the end of a segment meets the end of those that it closes. -/
theorem Meets.joined (hst : k.Meets s t) (hj : joint rule s t = some .joined)
    (htu : k.Meets t u) : k.Meets (s.joined t) u := by
  obtain ⟨m₀, hst⟩ := hst
  obtain ⟨m, htu⟩ := htu
  have htail : ∀ channel, (s.joined t).tail? channel = t.tail? channel :=
    tail?_joined (coherent_of_nodup nodup_parts) hst.within_left hst.within_right hj
  refine ⟨m, hst.within_left.joined hst.within_right, htu.within_right, htu.stop_eq, htu.start_eq,
    ?_, ?_, ?_, htu.first_lasts, htu.second_starts, ?_⟩
  · rw [htail]
    exact htu.seen
  · intro channel hfirst
    exact htu.first_ends channel (htail channel ▸ hfirst)
  · intro channel hsecond
    exact htu.second_lasts channel (htail channel ▸ hsecond)
  · intro hm channel
    rw [htail, htu.goes_on hm channel]

/-- Joining the parts and reading them as the clip can change places. -/
theorem joinAll_renamed (hsettled : (rule k.clip).Settled) {segments : List Segment}
    (hchain : segments.IsChain k.Meets) :
    joinAll rule (segments.map (Segment.renamed k.read)) =
      (joinAll rule segments).map (Joined.renamed k.read) :=
  joinAll_map (Segment.renamed_joined byIds_read)
    (fun _ _ ⟨_, h⟩ => h.joint_renamed hrule hsettled)
    (fun _ _ _ hst hj htu => hst.joined hj htu) hchain

end Rule

end ClipSplit

end Montage
