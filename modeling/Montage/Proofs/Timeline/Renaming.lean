import Montage.Proofs.Timeline.Joint

/-!
Segments that play other clips in place of their own.

Where a joint says the same of segments before and after their clips are replaced, joining and
replacing can change places.
-/

namespace Montage

/-- A replacement of clips that goes by their ids. -/
def ByIds (f : Clip → Clip) : Prop := ∀ c d, c.id = d.id → (f c).id = (f d).id

/-- A segment with other clips in place of its own, each once where one id follows itself. -/
def Segment.renamed (f : Clip → Clip) (s : Segment) : Segment :=
  { s with video := extendRun [] (s.video.map f), audio := extendRun [] (s.audio.map f) }

/-- Joined segments with other clips in place of their own. -/
def Joined.renamed (f : Clip → Clip) (r : Joined) : Joined :=
  { r with segments := r.segments.map (·.renamed f) }

section Runs

variable {f : Clip → Clip} {s t : Segment} {clips : List Clip}

theorem Segment.run_renamed (s : Segment) (channel : Channel) :
    (s.renamed f).run channel = extendRun [] ((s.run channel).map f) := by
  cases channel <;> rfl

/-- What was left out of a run would be left out after the replacement. -/
theorem extendRun_map_extendRun (hf : ByIds f) (run front more : List Clip) :
    extendRun run ((extendRun front more).map f) = extendRun run ((front ++ more).map f) := by
  induction more generalizing front with
  | nil => rw [extendRun, List.append_nil]
  | cons c rest ih =>
      simp only [extendRun]
      split
      · next hlast =>
          obtain ⟨d, hd, hid⟩ := (Option.any_eq_true _ _).1 hlast
          have hne : front.map f ≠ [] := by
            rw [ne_eq, List.map_eq_nil_iff]
            exact List.ne_nil_of_mem (List.mem_of_getLast? hd)
          have hlast' := getLast?_extendRun run hne
          rw [List.getLast?_map, hd] at hlast'
          obtain ⟨e, he, hid'⟩ := Option.map_eq_some_iff.1 hlast'
          have hskipped : e.id = (f c).id := hid'.trans (hf d c (beq_iff_eq.1 hid))
          rw [ih front, List.map_append, List.map_append, extendRun_append, extendRun_append,
            List.map_cons]
          simp only [extendRun, he, Option.any_some, hskipped, beq_self_eq_true, ↓reduceIte]
      · rw [ih (front ++ [c]), List.append_assoc, List.singleton_append]

/-- Replaced clips are joined as the clips are. -/
theorem Segment.renamed_joined (hf : ByIds f) (s t : Segment) :
    (s.joined t).renamed f = (s.renamed f).joined (t.renamed f) := by
  have hrun : ∀ run more : List Clip, extendRun [] ((extendRun run more).map f) =
      extendRun (extendRun [] (run.map f)) (extendRun [] (more.map f)) := by
    intro run more
    rw [extendRun_map_extendRun hf, List.map_append, extendRun_append]
    exact (extendRun_extendRun (extendRun [] (run.map f)) [] (more.map f)).symm
  simp only [Segment.renamed, Segment.joined, hrun]

theorem Segment.winner?_renamed (s : Segment) (channel : Channel) :
    (s.renamed f).winner? channel = (s.winner? channel).map f := by
  rw [winner?, run_renamed, winner?]
  cases s.run channel with
  | nil => rfl
  | cons c rest =>
      change (extendRun [f c] (rest.map f)).head? = _
      rw [head?_extendRun (List.cons_ne_nil _ _)]
      rfl

/-- Replaced clips are among those that replace. -/
theorem Segment.Within.renamed (h : ∀ channel, ∀ c ∈ s.run channel, f c ∈ clips) :
    (s.renamed f).Within clips := by
  intro channel c hc
  rw [run_renamed] at hc
  rcases mem_of_mem_extendRun hc with hc | hc
  · exact absurd hc List.not_mem_nil
  · obtain ⟨d, hd, rfl⟩ := List.mem_map.1 hc
    exact h channel d hd

theorem Segment.tail?_renamed (hclips : Coherent clips)
    (h : ∀ channel, ∀ c ∈ s.run channel, f c ∈ clips) (channel : Channel) :
    (s.renamed f).tail? channel = (s.tail? channel).map f := by
  have hwithin := Within.renamed h channel
  rw [tail?, tail?, run_renamed] at *
  by_cases hnil : s.run channel = []
  · rw [hnil]
    rfl
  · have hlast := getLast?_extendRun [] (mt List.map_eq_nil_iff.1 hnil : (s.run channel).map f ≠ [])
    obtain ⟨c, hc⟩ := Option.isSome_iff_exists.1 (List.getLast?_isSome.2 hnil)
    rw [List.getLast?_map, hc] at hlast
    obtain ⟨d, hd, hid⟩ := Option.map_eq_some_iff.1 hlast
    rw [hc, hd, Option.map_some,
      hclips d (hwithin d (List.mem_of_getLast? hd)) (f c) (h channel c (List.mem_of_getLast? hc))
        hid]

end Runs

section Joining

variable {rule : FilterRule} {f : Segment → Segment} {Meets : Segment → Segment → Prop}

/-- What changes the segments, but not what joints say of neighbours that meet, can be done before
joining or after it. -/
theorem joinOn_map (hf : ∀ s t, f (s.joined t) = (f s).joined (f t))
    (hjoint : ∀ s t, Meets s t → joint rule (f s) (f t) = joint rule s t)
    (hmeets : ∀ s t u, Meets s t → joint rule s t = some .joined → Meets t u →
      Meets (s.joined t) u)
    {current : Segment} {rest : List Segment} (hchain : (current :: rest).IsChain Meets) :
    joinOn rule (f current) (rest.map f) =
      (joinOn rule current rest).map fun r => ⟨r.segments.map f, r.blocked⟩ := by
  induction rest generalizing current with
  | nil => rfl
  | cons s rest ih =>
      have hseam := hjoint current s hchain.rel
      rw [List.map_cons]
      rcases hj : joint rule current s with _ | _ | b
      · rw [joinOn_of_none hj, joinOn_of_none (hseam.trans hj)]
        rfl
      · have hlater : ((current.joined s) :: rest).IsChain Meets :=
          hchain.tail.tail.cons fun u hu =>
            hmeets current s u hchain.rel hj (hchain.tail.rel_head? hu)
        rw [joinOn_of_joined hj, joinOn_of_joined (hseam.trans hj), ← hf, ih hlater]
      · rw [joinOn_of_apart hj, joinOn_of_apart (hseam.trans hj), ih hchain.tail]
        cases joinOn rule s rest <;> rfl

theorem joinAll_map (hf : ∀ s t, f (s.joined t) = (f s).joined (f t))
    (hjoint : ∀ s t, Meets s t → joint rule (f s) (f t) = joint rule s t)
    (hmeets : ∀ s t u, Meets s t → joint rule s t = some .joined → Meets t u →
      Meets (s.joined t) u)
    {segments : List Segment} (hchain : segments.IsChain Meets) :
    joinAll rule (segments.map f) =
      (joinAll rule segments).map fun r => ⟨r.segments.map f, r.blocked⟩ := by
  cases segments with
  | nil => rfl
  | cons s rest => exact joinOn_map hf hjoint hmeets hchain

end Joining

end Montage
