import Montage.Proofs.Timeline.Canonical
import Montage.Proofs.Timeline.Halving

/-!
Neighbours of the same winners, joined or put together beforehand.

Putting neighbours of the same winners together keeps what a tiling plays, and joining does not see
it: where the same clips go on, the segments would be joined anyway.
-/

namespace Montage

section Collapse

variable {clips : List Clip} {current : Segment} {rest segments : List Segment}

/-- Putting neighbours together keeps what is left of the seams. -/
theorem collapseFrom_isChain_of {M : Number → Number → Prop}
    (h : (current :: rest).IsChain fun s t => M s.stop t.start) :
    (collapseFrom current rest).IsChain fun s t => M s.stop t.start := by
  induction rest generalizing current with
  | nil => exact .singleton current
  | cons s rest ih =>
      simp only [collapseFrom]
      split
      · exact ih (h.tail.tail.cons fun _ hu => h.tail.rel_head? hu)
      · refine (ih h.tail).cons ?_
        intro t ht
        obtain ⟨stop, more, hmore⟩ := exists_collapseFrom_eq_cons s rest
        rw [hmore] at ht
        obtain rfl := Option.some.inj ht
        exact h.rel

theorem collapse_isChain_of {M : Number → Number → Prop}
    (h : segments.IsChain fun s t => M s.stop t.start) :
    (collapse segments).IsChain fun s t => M s.stop t.start := by
  cases segments with
  | nil => exact .nil
  | cons s rest => exact collapseFrom_isChain_of h

/-- Segments with one clip of the timeline at most on each channel. -/
structure Segment.Plain (clips : List Clip) (s : Segment) : Prop where
  single : s.Single
  within : s.Within clips

variable {s t : Segment}

theorem Segment.Plain.run_eq (hclips : Coherent clips) (hs : s.Plain clips) (ht : t.Plain clips)
    (h : s.sameWinners t = true) (channel : Channel) : t.run channel = s.run channel := by
  have hone : ∀ {u : Segment}, u.Plain clips →
      ∃ w : Option Clip, u.run channel = w.toList ∧ ∀ c ∈ w, c ∈ clips := by
    intro u hu
    obtain ⟨w, hw⟩ := hu.single channel
    refine ⟨w, hw, ?_⟩
    intro c hc
    exact hu.within channel c (by rw [hw, Option.mem_toList]; exact hc)
  exact (run_eq_of_sameWinners hclips (hone hs) (hone ht) h).symm

/-- A longer segment has the same runs. -/
theorem Segment.Plain.extend (hs : s.Plain clips) (stop : Number) :
    ({ s with stop := stop } : Segment).Plain clips := by
  constructor
  · intro channel
    cases channel
    · exact hs.single .video
    · exact hs.single .audio
  · intro channel
    cases channel
    · exact hs.within .video
    · exact hs.within .audio

theorem collapseFrom_plain (hplain : ∀ s ∈ current :: rest, s.Plain clips) :
    ∀ s ∈ collapseFrom current rest, s.Plain clips := by
  induction rest generalizing current with
  | nil => exact hplain
  | cons s rest ih =>
      obtain ⟨hcurrent, hlater⟩ := List.forall_mem_cons.1 hplain
      simp only [collapseFrom]
      split
      · exact ih (List.forall_mem_cons.2
          ⟨hcurrent.extend s.stop, (List.forall_mem_cons.1 hlater).2⟩)
      · exact List.forall_mem_cons.2 ⟨hcurrent, ih hlater⟩

section Following

variable (hclips : Coherent clips)
include hclips

/-- Putting neighbours together keeps the tiling and what it plays. -/
theorem collapseFrom_follows {played : Instant → Channel → List Clip} {a b : Place}
    (htiles : Tiles a b (current :: rest)) (hplain : ∀ s ∈ current :: rest, s.Plain clips)
    (hfollows : ∀ s ∈ current :: rest, s.Follows played) :
    Tiles a b (collapseFrom current rest) ∧
      ∀ s ∈ collapseFrom current rest, s.Follows played := by
  induction rest generalizing current a with
  | nil => exact ⟨htiles, hfollows⟩
  | cons s rest ih =>
      obtain ⟨ha, e, he, hae, he', e', hstop, hlt, hrest⟩ := htiles
      obtain ⟨hcurrent, hplain⟩ := List.forall_mem_cons.1 hplain
      obtain ⟨hs, hlater⟩ := List.forall_mem_cons.1 hplain
      obtain ⟨hplays, hfollows⟩ := List.forall_mem_cons.1 hfollows
      obtain ⟨hplays', hfollows'⟩ := List.forall_mem_cons.1 hfollows
      simp only [collapseFrom]
      split
      · next hsame =>
          refine ih ⟨ha, e', hstop, hae.trans hlt, hrest⟩
            (List.forall_mem_cons.2 ⟨hcurrent.extend s.stop, hlater⟩)
            (List.forall_mem_cons.2 ⟨?_, hfollows'⟩)
          intro u hu channel
          have hrun : ({ current with stop := s.stop } : Segment).run channel =
              current.run channel := by cases channel <;> rfl
          obtain ⟨hstart, hend⟩ := (Segment.holds_iff
            (s := { current with stop := s.stop }) ha hstop).1 hu
          rw [hrun]
          rcases lt_or_ge (Place.ofInstant u) e with hbefore | hafter
          · exact hplays u ((Segment.holds_iff ha he).2 ⟨hstart, hbefore⟩) channel
          · rw [← hcurrent.run_eq hclips hs hsame]
            exact hplays' u ((Segment.holds_iff he' hstop).2 ⟨hafter, hend⟩) channel
      · obtain ⟨htiles, hall⟩ := ih ⟨he', e', hstop, hlt, hrest⟩ hplain hfollows
        exact ⟨⟨ha, e, he, hae, htiles⟩, List.forall_mem_cons.2 ⟨hplays, hall⟩⟩

theorem collapse_follows {played : Instant → Channel → List Clip} {a b : Place}
    (htiles : Tiles a b segments) (hplain : ∀ s ∈ segments, s.Plain clips)
    (hfollows : ∀ s ∈ segments, s.Follows played) :
    Tiles a b (collapse segments) ∧ ∀ s ∈ collapse segments, s.Follows played := by
  cases segments with
  | nil => exact ⟨htiles, hfollows⟩
  | cons s rest => exact collapseFrom_follows hclips htiles hplain hfollows

/-- Joining gives the same, whether or not neighbours of the same winners were put together. -/
theorem joinOn_collapseFrom {rule : FilterRule} (hplain : ∀ s ∈ current :: rest, s.Plain clips)
    (hclose : (current :: rest).IsChain fun s t => closeTimes s.stop t.start = .ok true) :
    joinAll rule (collapseFrom current rest) = joinAll rule (current :: rest) := by
  induction rest generalizing current with
  | nil => rfl
  | cons s rest ih =>
      obtain ⟨hcurrent, hlater⟩ := List.forall_mem_cons.1 hplain
      obtain ⟨hs, hrest⟩ := List.forall_mem_cons.1 hlater
      simp only [collapseFrom]
      split
      · next hsame =>
          have hruns := hcurrent.run_eq hclips hs hsame
          rw [ih (List.forall_mem_cons.2 ⟨hcurrent.extend s.stop, hrest⟩)
            (hclose.tail.tail.cons fun _ hu => hclose.tail.rel_head? hu),
            ← joined_of_sameRuns hcurrent.single hruns]
          exact (joinOn_of_joined
            (joint_of_sameRuns hcurrent.single hruns (hclose.rel_head? rfl))).symm
      · have hwithin : ∀ t ∈ collapseFrom s rest, t.Within clips :=
          fun t ht => (collapseFrom_plain hlater t ht).within
        rw [joinAll_cons hclips hcurrent.within hwithin, ih hlater hclose.tail,
          ← joinAll_cons hclips hcurrent.within fun t ht => (hlater t ht).within]

theorem joinAll_collapse {rule : FilterRule} (hplain : ∀ s ∈ segments, s.Plain clips)
    (hclose : segments.IsChain fun s t => closeTimes s.stop t.start = .ok true) :
    joinAll rule (collapse segments) = joinAll rule segments := by
  cases segments with
  | nil => rfl
  | cons s rest => exact joinOn_collapseFrom hclips hplain hclose

end Following

end Collapse

end Montage
