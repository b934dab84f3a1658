import Montage.Proofs.Fault
import Montage.Proofs.Timeline.Winner
import Montage.Timeline.Join

/-!
The joints between neighbouring segments, with the filters of each clip known beforehand.

A joint looks at the last clips before it and at the first ones after it.  Joining moves the end of
a segment and its last clips, but keeps its start and its first clips.  So the segments can be
joined from the last one on as well, and a part of them may be joined before the others.
-/

namespace Montage

section ExtendRun

variable {run more : List Clip} {c : Clip}

theorem extendRun_append (run first second : List Clip) :
    extendRun run (first ++ second) = extendRun (extendRun run first) second := by
  induction first generalizing run with
  | nil => rfl
  | cons c rest ih =>
      simp only [List.cons_append, extendRun]
      split
      · exact ih run
      · exact ih (run ++ [c])

theorem extendRun_eq_append (run more : List Clip) :
    ∃ rest, extendRun run more = run ++ rest ∧ ∀ c ∈ rest, c ∈ more := by
  induction more generalizing run with
  | nil => exact ⟨[], by simp [extendRun], by simp⟩
  | cons c more ih =>
      simp only [extendRun]
      split
      · obtain ⟨rest, hrest, hmem⟩ := ih run
        exact ⟨rest, hrest, fun d hd => List.mem_cons_of_mem c (hmem d hd)⟩
      · obtain ⟨rest, hrest, hmem⟩ := ih (run ++ [c])
        refine ⟨c :: rest, by rw [hrest, List.append_assoc, List.singleton_append],
          ?_⟩
        intro d hd
        rcases List.mem_cons.1 hd with rfl | hd
        · exact List.mem_cons_self
        · exact List.mem_cons_of_mem c (hmem d hd)

theorem mem_of_mem_extendRun (h : c ∈ extendRun run more) :
    c ∈ run ∨ c ∈ more := by
  obtain ⟨rest, hrest, hmem⟩ := extendRun_eq_append run more
  rw [hrest] at h
  exact (List.mem_append.1 h).imp_right (hmem c)

theorem head?_extendRun (h : run ≠ []) :
    (extendRun run more).head? = run.head? := by
  obtain ⟨rest, hrest, -⟩ := extendRun_eq_append run more
  rw [hrest, List.head?_append_of_ne_nil run h]

/-- The last clip of an extended run has the id of the last one added. -/
theorem getLast?_extendRun (run : List Clip) (h : more ≠ []) :
    (extendRun run more).getLast?.map Clip.id = more.getLast?.map Clip.id := by
  obtain ⟨front, c, rfl⟩ := (List.eq_nil_or_concat more).resolve_left h
  rw [List.concat_eq_append, extendRun_append, List.getLast?_concat]
  simp only [extendRun]
  split
  · next hlast =>
      obtain ⟨d, hd, hid⟩ := (Option.any_eq_true _ _).1 hlast
      rw [hd]
      exact congrArg some (beq_iff_eq.1 hid)
  · rw [List.getLast?_concat]

/-- What changes clips, but not their ids, can be done before a run is extended or after it. -/
theorem map_extendRun {f : Clip → Clip} (hf : ∀ c, (f c).id = c.id) (run more : List Clip) :
    (extendRun run more).map f = extendRun (run.map f) (more.map f) := by
  induction more generalizing run with
  | nil => rfl
  | cons c rest ih =>
      have hlast : (run.map f).getLast?.any (·.id == (f c).id) =
          run.getLast?.any (·.id == c.id) := by
        rw [List.getLast?_map, Option.any_map]
        simp only [hf]
      simp only [List.map_cons, extendRun, hlast]
      split
      · exact ih run
      · rw [ih, List.map_append, List.map_singleton]

/-- Extending by an extended run is extending twice. -/
theorem extendRun_extendRun (run first second : List Clip) :
    extendRun run (extendRun first second) =
      extendRun (extendRun run first) second := by
  induction second generalizing first with
  | nil => rfl
  | cons c rest ih =>
      rcases List.eq_nil_or_concat first with rfl | ⟨front, d, rfl⟩
      · have hsingle : extendRun [] (c :: rest) = extendRun [c] rest := rfl
        rw [hsingle, ih [c], ← extendRun_append]
        rfl
      · rw [List.concat_eq_append]
        have hlast := getLast?_extendRun run (List.concat_ne_nil d front)
        rw [List.getLast?_concat] at hlast
        obtain ⟨e, he, hid⟩ := Option.map_eq_some_iff.1 hlast
        simp only [extendRun, he, List.getLast?_concat, Option.any_some, hid]
        split
        · exact ih (front ++ [d])
        · next hne =>
            rw [ih (front ++ [d] ++ [c]), extendRun_append]
            simp only [extendRun, he, Option.any_some, hid, hne, ↓reduceIte,
              Bool.false_eq_true]

end ExtendRun

/-- All clips of a segment are among the given ones. -/
def Segment.Within (clips : List Clip) (s : Segment) : Prop :=
  ∀ channel, ∀ c ∈ s.run channel, c ∈ clips

theorem Segment.run_joined (s t : Segment) (channel : Channel) :
    (s.joined t).run channel = extendRun (s.run channel) (t.run channel) := by
  cases channel <;> rfl

theorem Segment.Within.joined {clips : List Clip} {s t : Segment}
    (hs : s.Within clips) (ht : t.Within clips) : (s.joined t).Within clips := by
  intro channel c hc
  rw [run_joined] at hc
  exact (mem_of_mem_extendRun hc).elim (hs channel c) (ht channel c)

theorem Segment.joined_joined (s t u : Segment) :
    s.joined (t.joined u) = (s.joined t).joined u := by
  simp only [Segment.joined, extendRun_extendRun]

/-- One clip goes on as another on a channel, without a seam at a time. -/
def Continues (rule : FilterRule) (channel : Channel) (boundary : Number)
    (p n : Clip) : Prop :=
  p.id = n.id ∨ seamless p n boundary = .ok true ∧
    sameRendering channel p n (rule p) (rule n) = .ok true

/-- A channel that agrees has no clip on either side, or one that goes on. -/
theorem Decision.agrees_cases {rule : FilterRule} {prev next : Option Clip}
    {boundary : Number} {channel : Channel} {d : Decision}
    (h : Decision.between rule prev next boundary channel = .ok d)
    (hd : d.agrees = true) :
    prev = none ∧ next = none ∨
      ∃ p n, prev = some p ∧ next = some n ∧
        Continues rule channel boundary p n := by
  rcases prev with _ | p <;> rcases next with _ | n
  · exact Or.inl ⟨rfl, rfl⟩
  · obtain rfl : Decision.different = d := Except.ok.inj h
    simp [Decision.agrees] at hd
  · obtain rfl : Decision.different = d := Except.ok.inj h
    simp [Decision.agrees] at hd
  · refine Or.inr ⟨p, n, rfl, rfl, ?_⟩
    simp only [Decision.between] at h
    split at h
    · next hid => exact Or.inl (beq_iff_eq.1 hid)
    · rcases hseam : seamless p n boundary with f | _ | _
      · simp [hseam, bind, Except.bind] at h
      · simp only [hseam, bind, Except.bind, Bool.false_eq_true, ↓reduceIte] at h
        obtain rfl : Decision.different = d := Except.ok.inj h
        simp [Decision.agrees] at hd
      · rcases hsame : sameRendering channel p n (rule p) (rule n) with f | _ | _
        · simp [hseam, hsame, bind, Except.bind] at h
        · simp only [hseam, hsame, bind, Except.bind, Bool.false_eq_true,
            ↓reduceIte] at h
          obtain rfl : Decision.different = d := Except.ok.inj h
          simp [Decision.agrees] at hd
        · exact Or.inr ⟨hseam, hsame⟩

/-- What becomes of two neighbours: one segment, or still two, where the flag
tells whether one channel alone keeps them apart. -/
inductive Joint where
  | joined
  | apart (blocked : Bool)

/-- What becomes of two neighbours; nothing where a number is beyond the range
of binary64. -/
def joint (rule : FilterRule) (s t : Segment) : Option Joint := do
  if ← (closeTimes s.stop t.start).toOption then
    let audio ← (Decision.between rule (s.tail? .audio) (t.winner? .audio)
      t.start .audio).toOption
    let video ← (Decision.between rule (s.tail? .video) (t.winner? .video)
      t.start .video).toOption
    if audio.agrees && video.agrees then return .joined
    return .apart (audio.blocks video)
  return .apart false

/-- Joined neighbours are close, and both channels go on. -/
theorem joint_eq_joined {rule : FilterRule} {s t : Segment}
    (h : joint rule s t = some .joined) :
    closeTimes s.stop t.start = .ok true ∧ ∀ channel,
      s.tail? channel = none ∧ t.winner? channel = none ∨
        ∃ p n, s.tail? channel = some p ∧ t.winner? channel = some n ∧
          Continues rule channel t.start p n := by
  simp only [joint, bind, Option.bind_eq_some_iff, toOption_eq_some] at h
  obtain ⟨near, hnear, h⟩ := h
  cases near with
  | false =>
      simp only [Bool.false_eq_true, ↓reduceIte, pure, Option.some.injEq,
        reduceCtorEq] at h
  | true =>
      simp only [↓reduceIte, Option.bind_eq_some_iff, toOption_eq_some] at h
      obtain ⟨audio, haudio, video, hvideo, h⟩ := h
      split at h
      · next hagree =>
          rw [Bool.and_eq_true] at hagree
          refine ⟨hnear, ?_⟩
          intro channel
          cases channel with
          | audio => exact Decision.agrees_cases haudio hagree.1
          | video => exact Decision.agrees_cases hvideo hagree.2
      · simp only [pure, Option.some.injEq, reduceCtorEq] at h

/-- A joint looks at the end of one segment and at the start of the other. -/
theorem joint_congr (rule : FilterRule) {s s' t t' : Segment}
    (hstop : s'.stop = s.stop) (htail : ∀ channel, s'.tail? channel = s.tail? channel)
    (hstart : t'.start = t.start)
    (hwinner : ∀ channel, t'.winner? channel = t.winner? channel) :
    joint rule s' t' = joint rule s t := by
  simp only [joint, hstop, htail, hstart, hwinner]

theorem run_ne_nil_iff {rule : FilterRule} {s t : Segment}
    (h : joint rule s t = some .joined) (channel : Channel) :
    s.run channel ≠ [] ↔ t.run channel ≠ [] := by
  rcases (joint_eq_joined h).2 channel with ⟨hs, ht⟩ | ⟨p, n, hs, ht, -⟩
  · simp only [Segment.tail?, List.getLast?_eq_none_iff] at hs
    simp only [Segment.winner?, List.head?_eq_none_iff] at ht
    simp only [hs, ht]
  · exact iff_of_true (List.ne_nil_of_mem (List.mem_of_getLast? hs))
      (List.ne_nil_of_mem (List.mem_of_head? ht))

/-- A joined segment begins with the clips of its first part. -/
theorem winner?_joined {rule : FilterRule} {s t : Segment}
    (h : joint rule s t = some .joined) (channel : Channel) :
    (s.joined t).winner? channel = s.winner? channel := by
  rw [Segment.winner?, Segment.run_joined]
  by_cases hnil : t.run channel = []
  · rw [hnil]
    rfl
  · exact head?_extendRun ((run_ne_nil_iff h channel).2 hnil)

/-- A joined segment ends with the clips of its second part. -/
theorem tail?_joined {rule : FilterRule} {clips : List Clip} {s t : Segment}
    (hclips : Coherent clips) (hs : s.Within clips) (ht : t.Within clips)
    (h : joint rule s t = some .joined) (channel : Channel) :
    (s.joined t).tail? channel = t.tail? channel := by
  rw [Segment.tail?, Segment.tail?, Segment.run_joined]
  by_cases hnil : t.run channel = []
  · have hrun : s.run channel = [] := by
      by_contra hrun
      exact (run_ne_nil_iff h channel).1 hrun hnil
    rw [hnil, hrun]
    rfl
  · obtain ⟨d, hd⟩ := Option.isSome_iff_exists.1 (List.getLast?_isSome.2 hnil)
    have hid := getLast?_extendRun (s.run channel) hnil
    rw [hd] at hid
    obtain ⟨c, hc, hcd⟩ := Option.map_eq_some_iff.1 hid
    have hcmem : c ∈ clips := (mem_of_mem_extendRun
      (List.mem_of_getLast? hc)).elim (hs channel c) (ht channel c)
    rw [hc, hd, hclips c hcmem d (ht channel d (List.mem_of_getLast? hd)) hcd]

/-- The segments after `current`, joined, with the filters of each clip known
beforehand. -/
def joinOn (rule : FilterRule) (current : Segment) :
    List Segment → Option Joined
  | [] => some ⟨[current], false⟩
  | s :: rest => do
      match ← joint rule current s with
      | .joined => joinOn rule (current.joined s) rest
      | .apart blocked =>
          let later ← joinOn rule s rest
          return ⟨current :: later.segments, blocked || later.blocked⟩

def joinAll (rule : FilterRule) : List Segment → Option Joined
  | [] => some ⟨[], false⟩
  | s :: rest => joinOn rule s rest

/-- A segment put before joined ones, and joined to the first of them. -/
def Joined.prepend (rule : FilterRule) (s : Segment) (later : Joined) :
    Option Joined :=
  match later.segments with
  | [] => some ⟨[s], later.blocked⟩
  | t :: rest => do
      match ← joint rule s t with
      | .joined => return ⟨s.joined t :: rest, later.blocked⟩
      | .apart blocked => return ⟨s :: t :: rest, blocked || later.blocked⟩

section Equations

variable {rule : FilterRule} {s t : Segment} {rest : List Segment}
  {blocked b : Bool}

theorem joinOn_of_none (h : joint rule s t = none) :
    joinOn rule s (t :: rest) = none := by
  simp only [joinOn, h, bind, Option.bind_none]

theorem joinOn_of_joined (h : joint rule s t = some .joined) :
    joinOn rule s (t :: rest) = joinOn rule (s.joined t) rest := by
  simp only [joinOn, h, bind, Option.bind_some]

theorem joinOn_of_apart (h : joint rule s t = some (.apart b)) :
    joinOn rule s (t :: rest) = (joinOn rule t rest).map fun later =>
      ⟨s :: later.segments, b || later.blocked⟩ := by
  simp only [joinOn, h, bind, Option.bind_some]
  exact Option.map_eq_bind.symm

theorem prepend_of_none (h : joint rule s t = none) :
    Joined.prepend rule s ⟨t :: rest, blocked⟩ = none := by
  simp only [Joined.prepend, h, bind, Option.bind_none]

theorem prepend_of_joined (h : joint rule s t = some .joined) :
    Joined.prepend rule s ⟨t :: rest, blocked⟩ =
      some ⟨s.joined t :: rest, blocked⟩ := by
  simp only [Joined.prepend, h, bind, Option.bind_some, pure]

theorem prepend_of_apart (h : joint rule s t = some (.apart b)) :
    Joined.prepend rule s ⟨t :: rest, blocked⟩ =
      some ⟨s :: t :: rest, b || blocked⟩ := by
  simp only [Joined.prepend, h, bind, Option.bind_some, pure]

/-- How the first two of some segments were joined, if they could be. -/
theorem joinOn_cases {r : Joined} (h : joinOn rule s (t :: rest) = some r) :
    joint rule s t = some .joined ∧ joinOn rule (s.joined t) rest = some r ∨
      ∃ b later, joint rule s t = some (.apart b) ∧
        joinOn rule t rest = some later ∧
        r = ⟨s :: later.segments, b || later.blocked⟩ := by
  rcases hj : joint rule s t with _ | _ | b
  · rw [joinOn_of_none hj] at h
    simp only [reduceCtorEq] at h
  · rw [joinOn_of_joined hj] at h
    exact Or.inl ⟨rfl, h⟩
  · rw [joinOn_of_apart hj] at h
    obtain ⟨later, hlater, hr⟩ := Option.map_eq_some_iff.1 h
    exact Or.inr ⟨b, later, rfl, hlater, hr.symm⟩

theorem prepend_cases {r : Joined}
    (h : Joined.prepend rule s ⟨t :: rest, blocked⟩ = some r) :
    joint rule s t = some .joined ∧ r = ⟨s.joined t :: rest, blocked⟩ ∨
      ∃ b, joint rule s t = some (.apart b) ∧
        r = ⟨s :: t :: rest, b || blocked⟩ := by
  rcases hj : joint rule s t with _ | _ | b
  · rw [prepend_of_none hj] at h
    simp only [reduceCtorEq] at h
  · rw [prepend_of_joined hj] at h
    exact Or.inl ⟨rfl, (Option.some.inj h).symm⟩
  · rw [prepend_of_apart hj] at h
    exact Or.inr ⟨b, rfl, (Option.some.inj h).symm⟩

end Equations

/-- The first joined segment keeps the start and the first clips of the first
one, which is all that a joint before it looks at. -/
theorem joinOn_head {rule : FilterRule} {s : Segment} {rest : List Segment}
    {r : Joined} (h : joinOn rule s rest = some r) :
    ∃ u more, r = ⟨u :: more, r.blocked⟩ ∧
      ∀ v, joint rule v u = joint rule v s := by
  induction rest generalizing s with
  | nil =>
      obtain rfl := Option.some.inj h
      exact ⟨s, [], rfl, fun _ => rfl⟩
  | cons t rest ih =>
      rcases joinOn_cases h with ⟨hj, h⟩ | ⟨b, later, -, -, rfl⟩
      · obtain ⟨u, more, hr, hu⟩ := ih h
        refine ⟨u, more, hr, ?_⟩
        intro v
        exact (hu v).trans
          (joint_congr rule rfl (fun _ => rfl) rfl (winner?_joined hj))
      · exact ⟨s, later.segments, rfl, fun _ => rfl⟩

/-- Where two segments are joined, they may be put before others one after the
other. -/
theorem prepend_joined {rule : FilterRule} {clips : List Clip} {s t : Segment}
    (hclips : Coherent clips) (hs : s.Within clips) (ht : t.Within clips)
    (h : joint rule s t = some .joined) (later : Joined) :
    later.prepend rule (s.joined t) =
      (later.prepend rule t).bind (Joined.prepend rule s) := by
  obtain ⟨_ | ⟨u, rest⟩, blocked⟩ := later
  · exact (prepend_of_joined h).symm
  · have hseam : joint rule (s.joined t) u = joint rule t u :=
      joint_congr rule rfl (tail?_joined hclips hs ht h) rfl fun _ => rfl
    rcases hj : joint rule t u with _ | _ | b
    · rw [prepend_of_none hj, prepend_of_none (hseam.trans hj), Option.bind_none]
    · have hfirst : joint rule s (t.joined u) = joint rule s t :=
        joint_congr rule rfl (fun _ => rfl) rfl (winner?_joined hj)
      rw [prepend_of_joined hj, prepend_of_joined (hseam.trans hj),
        Option.bind_some, prepend_of_joined (hfirst.trans h),
        Segment.joined_joined]
    · rw [prepend_of_apart hj, prepend_of_apart (hseam.trans hj),
        Option.bind_some, prepend_of_joined h]

/-- Joining from the first segment on comes to the same as joining from the
last one on. -/
theorem joinAll_cons {rule : FilterRule} {clips : List Clip} {s : Segment}
    {rest : List Segment} (hclips : Coherent clips) (hs : s.Within clips)
    (hrest : ∀ t ∈ rest, t.Within clips) :
    joinAll rule (s :: rest) =
      (joinAll rule rest).bind (Joined.prepend rule s) := by
  induction rest generalizing s with
  | nil => rfl
  | cons t rest ih =>
      obtain ⟨ht, hrest⟩ := List.forall_mem_cons.1 hrest
      have hlater := ih ht hrest
      change joinOn rule s (t :: rest) = _
      rcases hj : joint rule s t with _ | _ | b
      · rw [joinOn_of_none hj]
        rcases hk : joinAll rule (t :: rest) with _ | k
        · rfl
        · obtain ⟨u, more, hmore, hu⟩ := joinOn_head hk
          rw [Option.bind_some, hmore, prepend_of_none ((hu s).trans hj)]
      · rw [joinOn_of_joined hj, hlater, Option.bind_assoc]
        exact (ih (hs.joined ht) hrest).trans (congrArg (Option.bind _)
          (funext (prepend_joined hclips hs ht hj)))
      · rw [joinOn_of_apart hj]
        change (joinAll rule (t :: rest)).map _ = _
        rcases hk : joinAll rule (t :: rest) with _ | k
        · rfl
        · obtain ⟨u, more, hmore, hu⟩ := joinOn_head hk
          rw [Option.bind_some, hmore, prepend_of_apart ((hu s).trans hj)]
          rfl

/-- Joining keeps to the clips of the segments. -/
theorem within_of_prepend {rule : FilterRule} {clips : List Clip} {s : Segment}
    {later r : Joined} (hs : s.Within clips)
    (hlater : ∀ t ∈ later.segments, t.Within clips)
    (h : later.prepend rule s = some r) : ∀ t ∈ r.segments, t.Within clips := by
  obtain ⟨_ | ⟨t, rest⟩, blocked⟩ := later
  · obtain rfl := Option.some.inj h
    exact List.forall_mem_singleton.2 hs
  · obtain ⟨ht, hrest⟩ := List.forall_mem_cons.1 hlater
    rcases prepend_cases h with ⟨-, rfl⟩ | ⟨b, -, rfl⟩
    · exact List.forall_mem_cons.2 ⟨hs.joined ht, hrest⟩
    · exact List.forall_mem_cons.2 ⟨hs, hlater⟩

theorem within_of_joinAll {rule : FilterRule} {clips : List Clip}
    (hclips : Coherent clips) {segments : List Segment} {r : Joined}
    (hwithin : ∀ t ∈ segments, t.Within clips)
    (h : joinAll rule segments = some r) : ∀ t ∈ r.segments, t.Within clips := by
  induction segments generalizing r with
  | nil =>
      obtain rfl := Option.some.inj h
      simp
  | cons s rest ih =>
      obtain ⟨hs, hrest⟩ := List.forall_mem_cons.1 hwithin
      rw [joinAll_cons hclips hs hrest, Option.bind_eq_some_iff] at h
      obtain ⟨later, hlater, h⟩ := h
      exact within_of_prepend hs (ih hrest hlater) h

/-- Segments may be joined before others are put behind them. -/
theorem joinAll_segments_append {rule : FilterRule} {clips : List Clip}
    (hclips : Coherent clips) {first second : List Segment} {a : Joined}
    (hfirst : ∀ t ∈ first, t.Within clips) (hsecond : ∀ t ∈ second, t.Within clips)
    (h : joinAll rule first = some a) :
    joinAll rule (a.segments ++ second) = joinAll rule (first ++ second) := by
  induction first generalizing a with
  | nil =>
      obtain rfl := Option.some.inj h
      rfl
  | cons s rest ih =>
      obtain ⟨hs, hrest⟩ := List.forall_mem_cons.1 hfirst
      rw [joinAll_cons hclips hs hrest, Option.bind_eq_some_iff] at h
      obtain ⟨later, hlater, h⟩ := h
      have hwithin := within_of_joinAll hclips hrest hlater
      rw [List.cons_append, joinAll_cons hclips hs
        (List.forall_mem_append.2 ⟨hrest, hsecond⟩), ← ih hrest hlater]
      obtain ⟨_ | ⟨t, more⟩, blocked⟩ := later
      · obtain rfl := Option.some.inj h
        exact joinAll_cons hclips hs hsecond
      · obtain ⟨ht, hmore⟩ := List.forall_mem_cons.1 hwithin
        have hbehind := List.forall_mem_append.2 ⟨hmore, hsecond⟩
        rcases prepend_cases h with ⟨hj, rfl⟩ | ⟨b, -, rfl⟩
        · rw [List.cons_append, List.cons_append,
            joinAll_cons hclips (hs.joined ht) hbehind,
            joinAll_cons hclips ht hbehind, Option.bind_assoc]
          exact congrArg (Option.bind _) (funext (prepend_joined hclips hs ht hj))
        · exact joinAll_cons hclips hs (List.forall_mem_cons.2 ⟨ht, hbehind⟩)

/-- Segments may be joined before they are put behind others. -/
theorem joinAll_append_segments {rule : FilterRule} {clips : List Clip}
    (hclips : Coherent clips) {first second : List Segment} {b : Joined}
    (hfirst : ∀ t ∈ first, t.Within clips) (hsecond : ∀ t ∈ second, t.Within clips)
    (h : joinAll rule second = some b) :
    joinAll rule (first ++ b.segments) = joinAll rule (first ++ second) := by
  induction first with
  | nil =>
      simpa only [List.append_nil, List.nil_append] using
        joinAll_segments_append hclips hsecond (List.forall_mem_nil _) h
  | cons s rest ih =>
      obtain ⟨hs, hrest⟩ := List.forall_mem_cons.1 hfirst
      have hwithin := within_of_joinAll hclips hsecond h
      rw [List.cons_append, List.cons_append,
        joinAll_cons hclips hs (List.forall_mem_append.2 ⟨hrest, hsecond⟩),
        joinAll_cons hclips hs (List.forall_mem_append.2 ⟨hrest, hwithin⟩), ih hrest]

/-- Where a list can be joined, its first and its second part can. -/
theorem exists_joinAll_of_append {rule : FilterRule} {clips : List Clip}
    (hclips : Coherent clips) {first second : List Segment} {r : Joined}
    (hfirst : ∀ t ∈ first, t.Within clips) (hsecond : ∀ t ∈ second, t.Within clips)
    (h : joinAll rule (first ++ second) = some r) :
    (∃ a, joinAll rule first = some a) ∧ ∃ b, joinAll rule second = some b := by
  induction first generalizing r with
  | nil => exact ⟨⟨_, rfl⟩, r, h⟩
  | cons s rest ih =>
      obtain ⟨hs, hrest⟩ := List.forall_mem_cons.1 hfirst
      rw [List.cons_append, joinAll_cons hclips hs
        (List.forall_mem_append.2 ⟨hrest, hsecond⟩), Option.bind_eq_some_iff] at h
      obtain ⟨later, hlater, h⟩ := h
      obtain ⟨⟨a, ha⟩, hb⟩ := ih hrest hlater
      refine ⟨?_, hb⟩
      rw [joinAll_cons hclips hs hrest, ha, Option.bind_some]
      cases rest with
      | nil =>
          obtain rfl := Option.some.inj ha
          exact ⟨_, rfl⟩
      | cons t rest =>
          obtain ⟨u, more, hlater', hu⟩ := joinOn_head hlater
          obtain ⟨v, more', ha', hv⟩ := joinOn_head ha
          rw [hlater'] at h
          rw [ha']
          -- both lists begin as `t` does, so this joint is the same before both
          have hsame : joint rule s v = joint rule s u :=
            (hv s).trans (hu s).symm
          rcases prepend_cases h with ⟨hj, -⟩ | ⟨b, hj, -⟩
          · exact ⟨_, prepend_of_joined (hsame.trans hj)⟩
          · exact ⟨_, prepend_of_apart (hsame.trans hj)⟩

/-- Two lists of segments may be joined each for itself before they are joined
together. -/
theorem joinAll_append {rule : FilterRule} {clips : List Clip}
    (hclips : Coherent clips) {first second : List Segment}
    (hfirst : ∀ t ∈ first, t.Within clips)
    (hsecond : ∀ t ∈ second, t.Within clips) :
    ((joinAll rule first).bind fun a => (joinAll rule second).bind fun b =>
        joinAll rule (a.segments ++ b.segments)) =
      joinAll rule (first ++ second) := by
  have hjoined : ∀ a b, joinAll rule first = some a →
      joinAll rule second = some b →
      joinAll rule (a.segments ++ b.segments) =
        joinAll rule (first ++ second) := by
    intro a b ha hb
    rw [joinAll_segments_append hclips hfirst
        (within_of_joinAll hclips hsecond hb) ha,
      joinAll_append_segments hclips hfirst hsecond hb]
  rcases hall : joinAll rule (first ++ second) with _ | r
  · rw [Option.bind_eq_none_iff]
    intro a ha
    rw [Option.bind_eq_none_iff]
    intro b hb
    rw [hjoined a b ha hb, hall]
  · obtain ⟨⟨a, ha⟩, b, hb⟩ :=
      exists_joinAll_of_append hclips hfirst hsecond hall
    rw [ha, Option.bind_some, hb, Option.bind_some, hjoined a b ha hb, hall]

/-- Joining joined segments changes nothing. -/
theorem joinAll_joinAll {rule : FilterRule} {clips : List Clip}
    (hclips : Coherent clips) {segments : List Segment}
    (hwithin : ∀ t ∈ segments, t.Within clips) :
    ((joinAll rule segments).bind fun a => joinAll rule a.segments) =
      joinAll rule segments := by
  have h : ((joinAll rule segments).bind fun a => (joinAll rule []).bind fun b =>
      joinAll rule (a.segments ++ b.segments)) = joinAll rule (segments ++ []) :=
    joinAll_append hclips hwithin (List.forall_mem_nil _)
  simpa only [joinAll, Option.bind_some, List.append_nil] using h

end Montage
