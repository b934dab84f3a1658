import Mathlib.Data.List.Destutter
import Mathlib.Data.List.SplitBy
import Montage.Proofs.Timeline.Recall

/-!
Joining compared with a look at each pair of neighbours.

While segments are joined, the next one is compared with all that was joined before it.  The last
clips of that are those of the neighbour itself, so each pair of neighbours may as well be looked at
as they are: what is left is one segment for each maximal group of segments that go together.
-/

namespace Montage

/-- The decision on a channel between two neighbours as they are. -/
def decisionBetween (rule : FilterRule) (memo : FilterMemo) (channel : Channel)
    (s t : Segment) : Except Fault Decision :=
  (Decision.recalled rule (s.tail? channel) (t.winner? channel) t.start
    channel).run' memo

/-- Whether two neighbours as they are go together: they are close in time, and
both channels go on. -/
def goTogether (rule : FilterRule) (memo : FilterMemo) (s t : Segment) :
    Except Fault Bool := do
  if ← closeTimes s.stop t.start then
    let audio ← decisionBetween rule memo .audio s t
    let video ← decisionBetween rule memo .video s t
    return audio.agrees && video.agrees
  return false

/-- Two neighbours are close in time, and one channel continues while another
one keeps them apart. -/
def IsBlocked (rule : FilterRule) (memo : FilterMemo) (s t : Segment) : Prop :=
  closeTimes s.stop t.start = .ok true ∧ ∃ channel other,
    decisionBetween rule memo channel s t = .ok .continuous ∧
      decisionBetween rule memo other s t = .ok .different

/-- Whether two neighbours go together can be told. -/
def IsDecided (rule : FilterRule) (memo : FilterMemo) (s t : Segment) : Prop :=
  ∃ b, goTogether rule memo s t = .ok b

/-- No clip of a segment follows one of the same id. -/
def Segment.IsCollapsed (s : Segment) : Prop :=
  ∀ channel, (s.run channel).IsChain fun c d => c.id ≠ d.id

/-- One segment in place of others: from the start of the first to the end of
the last, it plays their clips, each once where one id follows itself. -/
structure Segment.Unites (members : List Segment) (whole : Segment) : Prop where
  start_eq : members.head?.map Segment.start = some whole.start
  stop_eq : members.getLast?.map Segment.stop = some whole.stop
  run_eq : ∀ channel, whole.run channel =
    (members.flatMap (·.run channel)).destutter fun c d => c.id ≠ d.id

/-- The joined segments are the maximal groups of segments that go together, and
the flag tells of neighbours that one channel alone keeps apart. -/
structure JoinsPairwise (rule : FilterRule) (memo : FilterMemo)
    (segments : List Segment) (r : Joined) : Prop where
  unites : List.Forall₂ Segment.Unites
    (segments.splitBy fun s t => goTogether rule memo s t == .ok true) r.segments
  blocked_iff : r.blocked = true ↔
    ∃ s t, [s, t] <:+: segments ∧ IsBlocked rule memo s t

section Collapsed

variable {run more : List Clip}

/-- A run extended by clips is the run and the clips with repeated ids
collapsed. -/
theorem extendRun_cons_eq_destutter' (front : List Clip) (c : Clip)
    (more : List Clip) :
    extendRun (front ++ [c]) more =
      front ++ more.destutter' (fun c d => c.id ≠ d.id) c := by
  induction more generalizing front c with
  | nil => rfl
  | cons d rest ih =>
      simp only [extendRun, List.getLast?_concat, Option.any_some, beq_iff_eq]
      split
      · next hid => rw [ih, List.destutter'_cons_neg _ (not_not.2 hid)]
      · next hid =>
          rw [ih (front ++ [c]) d, List.destutter'_cons_pos _ hid,
            List.append_assoc, List.singleton_append]

theorem extendRun_nil_eq_destutter (run : List Clip) :
    extendRun [] run = run.destutter fun c d => c.id ≠ d.id := by
  cases run with
  | nil => rfl
  | cons c rest => exact extendRun_cons_eq_destutter' [] c rest

/-- Extending a run without repeated ids collapses what follows it. -/
theorem extendRun_destutter (hrun : run.IsChain fun c d => c.id ≠ d.id)
    (more : List Clip) :
    extendRun run (more.destutter fun c d => c.id ≠ d.id) =
      (run ++ more).destutter fun c d => c.id ≠ d.id := by
  rw [← extendRun_nil_eq_destutter, ← extendRun_nil_eq_destutter,
    extendRun_extendRun, extendRun_append, extendRun_nil_eq_destutter run,
    List.destutter_of_isChain _ _ hrun]
  rfl

end Collapsed

namespace Segment.Unites

variable {members : List Segment} {s t u : Segment}

theorem singleton (hruns : s.IsCollapsed) : Unites [s] s where
  start_eq := rfl
  stop_eq := rfl
  run_eq channel := by
    rw [List.flatMap_singleton, List.destutter_of_isChain _ _ (hruns channel)]

/-- A segment joined to what some others became unites it with them. -/
theorem cons (h : Unites (t :: members) u) (hruns : s.IsCollapsed) :
    Unites (s :: t :: members) (s.joined u) where
  start_eq := rfl
  stop_eq := by
    rw [List.getLast?_cons_cons]
    exact h.stop_eq
  run_eq channel := by
    rw [run_joined, h.run_eq, extendRun_destutter (hruns channel)]
    rfl

end Segment.Unites

/-- An element before others opens a new group, or joins the first one. -/
theorem exists_splitBy_cons {α : Type} (r : α → α → Bool) (a b : α) (l : List α) :
    ∃ g gs, (b :: l).splitBy r = (b :: g) :: gs ∧
      (a :: b :: l).splitBy r =
        if r a b then (a :: b :: g) :: gs else [a] :: (b :: g) :: gs := by
  rcases hsplit : (b :: l).splitBy r with _ | ⟨g, gs⟩
  · exact absurd hsplit (List.splitBy_ne_nil.2 (List.cons_ne_nil b l))
  · obtain ⟨hflatten, hnil, hgroups, hseams⟩ := List.splitBy_eq_iff.1 hsplit
    rw [List.mem_cons, not_or] at hnil
    obtain ⟨hg, hgs⟩ := hnil
    cases g with
    | nil => exact absurd rfl hg
    | cons c g =>
        rw [List.flatten_cons, List.cons_append] at hflatten
        obtain ⟨rfl, rfl⟩ := List.cons.inj hflatten
        refine ⟨g, gs, rfl, ?_⟩
        cases hab : r a b with
        | false =>
            have happend := List.splitBy_append_cons (l := [a]) (g ++ gs.flatten)
              (by simpa using hab)
            rw [hsplit] at happend
            exact happend
        | true =>
            obtain ⟨hfirst, hrest⟩ := List.forall_mem_cons.1 hgroups
            rw [if_pos rfl, List.splitBy_eq_iff]
            refine ⟨rfl, ?_, ?_, ?_⟩
            · rw [List.mem_cons, not_or]
              exact ⟨List.cons_ne_nil _ _ ∘ Eq.symm, hgs⟩
            · exact List.forall_mem_cons.2 ⟨hfirst.cons_cons hab, hrest⟩
            · rw [List.isChain_cons] at hseams ⊢
              refine ⟨?_, hseams.2⟩
              intro h hh
              obtain ⟨hne, hhead, hseam⟩ := hseams.1 h hh
              refine ⟨List.cons_ne_nil _ _, hhead, ?_⟩
              rwa [List.getLast_cons hne]

section Decisions

variable {rule : FilterRule} {memo : FilterMemo} {clips : List Clip}
  {s t : Segment}

theorem OnlyTooLarge.between (known : FilterRule) (prev next : Option Clip)
    (boundary : Number) (channel : Channel) :
    OnlyTooLarge (Decision.between known prev next boundary channel) := by
  rcases prev with _ | p <;> rcases next with _ | n
  · exact .ok _
  · exact .ok _
  · exact .ok _
  · refine .ite (.ok _) (.bind (.seamless p n boundary) fun near => ?_)
    cases near with
    | false => exact .ok _
    | true =>
        refine .bind (.sameRendering channel p n _ _) fun same => ?_
        cases same <;> exact .ok _

theorem outcome_toOption {α : Type} {x : Except Fault α} (h : OnlyTooLarge x) :
    outcome x.toOption = x := by
  cases x with
  | ok a => rfl
  | error f =>
      obtain rfl := h f rfl
      rfl

/-- The decision is the one with the filters that the memo gives. -/
theorem decisionBetween_eq (rule : FilterRule) (memo : FilterMemo)
    (hclips : Coherent clips) (hs : s.Within clips) (ht : t.Within clips)
    (channel : Channel) :
    decisionBetween rule memo channel s t =
      Decision.between (memo.recall rule) (s.tail? channel) (t.winner? channel)
        t.start channel := by
  have htail : ∀ c ∈ s.tail? channel, c ∈ clips :=
    fun c hc => hs channel c (List.mem_of_getLast? hc)
  have hwinner : ∀ c ∈ t.winner? channel, c ∈ clips :=
    fun c hc => ht channel c (List.mem_of_head? hc)
  rw [decisionBetween,
    (answers_recalled hclips htail hwinner t.start channel).run'_eq,
    outcome_toOption (.between _ _ _ _ _)]

/-- One channel continues while the other one keeps the neighbours apart. -/
theorem Decision.blocks_iff {d : Channel → Except Fault Decision}
    {audio video : Decision} (haudio : d .audio = .ok audio)
    (hvideo : d .video = .ok video) :
    audio.blocks video = true ↔ ∃ channel other,
      d channel = .ok .continuous ∧ d other = .ok .different := by
  constructor
  · intro h
    cases audio <;> cases video <;> first
      | exact absurd h (by decide)
      | exact ⟨.audio, .video, haudio, hvideo⟩
      | exact ⟨.video, .audio, hvideo, haudio⟩
  · rintro ⟨channel, other, h, h'⟩
    cases channel <;> cases other
    case video.video => simp [h] at h'
    case audio.audio => simp [h] at h'
    case video.audio =>
      obtain rfl := Except.ok.inj (hvideo.symm.trans h)
      obtain rfl := Except.ok.inj (haudio.symm.trans h')
      rfl
    case audio.video =>
      obtain rfl := Except.ok.inj (haudio.symm.trans h)
      obtain rfl := Except.ok.inj (hvideo.symm.trans h')
      rfl

/-- What becomes of two neighbours is what is decided on them as they are. -/
theorem joint_cases (rule : FilterRule) (memo : FilterMemo)
    (hclips : Coherent clips) (hs : s.Within clips) (ht : t.Within clips) :
    (joint (memo.recall rule) s t = none ∧ ¬IsDecided rule memo s t) ∨
    (joint (memo.recall rule) s t = some .joined ∧
      goTogether rule memo s t = .ok true ∧ ¬IsBlocked rule memo s t) ∨
    ∃ b, joint (memo.recall rule) s t = some (.apart b) ∧
      goTogether rule memo s t = .ok false ∧
      (b = true ↔ IsBlocked rule memo s t) := by
  have hbetween := decisionBetween_eq rule memo hclips hs ht
  simp only [joint, IsDecided, goTogether, IsBlocked, ← hbetween]
  rcases hnear : closeTimes s.stop t.start with f | _ | _
  · left
    simp [Except.toOption, bind, Except.bind]
  · right; right
    exact ⟨false, rfl, rfl, by simp⟩
  · rcases haudio : decisionBetween rule memo .audio s t with f | audio
    · left
      simp [Except.toOption, bind, Except.bind]
    rcases hvideo : decisionBetween rule memo .video s t with f | video
    · left
      simp [Except.toOption, bind, Except.bind]
    right
    have hblocks := Decision.blocks_iff
      (d := fun channel => decisionBetween rule memo channel s t) haudio hvideo
    by_cases hagree : audio.agrees = true ∧ video.agrees = true
    · left
      refine ⟨?_, ?_, ?_⟩
      · simp [Except.toOption, hagree]
      · simp [bind, Except.bind, pure, Except.pure, hagree]
      · rw [eq_self, true_and, ← hblocks]
        simp [Decision.blocks, hagree]
    · right
      have hapart : (audio.agrees && video.agrees) = false := by
        rwa [← Bool.and_eq_true, Bool.not_eq_true] at hagree
      refine ⟨audio.blocks video, ?_, ?_, ?_⟩
      · simp only [Except.toOption, hapart, bind, Option.bind_some, pure,
          ↓reduceIte, Bool.false_eq_true]
      · simp only [bind, Except.bind, hapart, pure, Except.pure, ↓reduceIte]
      · rw [eq_self, true_and, ← hblocks]

end Decisions

section Pass

variable {rule : FilterRule} {memo : FilterMemo} {clips : List Clip}

/-- A segment before joined ones gives what a look at each pair of neighbours
does, or fails where that does. -/
theorem JoinsPairwise.prepend (hclips : Coherent clips) {s t : Segment}
    {rest : List Segment} {later : Joined} (hs : s.Within clips)
    (ht : t.Within clips) (hruns : s.IsCollapsed)
    (hhead : ∀ u ∈ later.segments.head?,
      joint (memo.recall rule) s u = joint (memo.recall rule) s t)
    (h : JoinsPairwise rule memo (t :: rest) later) :
    (later.prepend (memo.recall rule) s = none ∧ ¬IsDecided rule memo s t) ∨
      IsDecided rule memo s t ∧ ∃ r, later.prepend (memo.recall rule) s = some r ∧
        JoinsPairwise rule memo (s :: t :: rest) r := by
  obtain ⟨segments, blocked⟩ := later
  obtain ⟨hunites, hblocked⟩ := h
  obtain ⟨g, gs, hsplit, hcons⟩ := exists_splitBy_cons
    (fun s t => goTogether rule memo s t == .ok true) s t rest
  rw [hsplit] at hunites
  obtain ⟨u, more, hu, hmore, rfl⟩ := List.forall₂_cons_left_iff.1 hunites
  replace hhead : joint (memo.recall rule) s u = joint (memo.recall rule) s t :=
    hhead u rfl
  have hpairs : (∃ x y, [x, y] <:+: s :: t :: rest ∧ IsBlocked rule memo x y) ↔
      IsBlocked rule memo s t ∨ blocked = true := by
    simp only [hblocked, List.infix_cons_iff (a := s), List.cons_prefix_cons,
      List.nil_prefix, and_true]
    grind
  rcases joint_cases rule memo hclips hs ht with
    ⟨hnone, hundecided⟩ | ⟨hjoined, htogether, hfree⟩ | ⟨b, hapart, htogether, hb⟩
  · exact Or.inl ⟨prepend_of_none (hhead.trans hnone), hundecided⟩
  · refine Or.inr ⟨⟨true, htogether⟩, _, prepend_of_joined (hhead.trans hjoined), ?_⟩
    constructor
    · rw [hcons, if_pos (by simp [htogether])]
      exact .cons (hu.cons hruns) hmore
    · rw [hpairs, or_iff_right hfree]
  · refine Or.inr ⟨⟨false, htogether⟩, _, prepend_of_apart (hhead.trans hapart), ?_⟩
    constructor
    · rw [hcons, if_neg (by simp [htogether])]
      exact .cons (.singleton hruns) (.cons hu hmore)
    · rw [hpairs, Bool.or_eq_true, hb]

theorem joinAll_pairwise (rule : FilterRule) (memo : FilterMemo)
    (hclips : Coherent clips) {segments : List Segment}
    (hwithin : ∀ s ∈ segments, s.Within clips)
    (hruns : ∀ s ∈ segments, s.IsCollapsed) :
    (joinAll (memo.recall rule) segments = none ∧
      ¬segments.IsChain (IsDecided rule memo)) ∨
    segments.IsChain (IsDecided rule memo) ∧
      ∃ r, joinAll (memo.recall rule) segments = some r ∧
        JoinsPairwise rule memo segments r := by
  induction segments with
  | nil => exact Or.inr ⟨.nil, _, rfl, .nil, by simp⟩
  | cons s rest ih =>
      obtain ⟨hs, hrest⟩ := List.forall_mem_cons.1 hwithin
      obtain ⟨hsrun, hrestrun⟩ := List.forall_mem_cons.1 hruns
      rw [joinAll_cons hclips hs hrest]
      cases rest with
      | nil =>
          refine Or.inr ⟨.singleton s, _, rfl, .cons (.singleton hsrun) .nil, ?_⟩
          simp [List.infix_cons_iff]
      | cons t rest =>
          have ht := hrest t List.mem_cons_self
          rw [List.isChain_cons_cons]
          rcases ih hrest hrestrun with ⟨hnone, hrest⟩ | ⟨hrest, later, hlater, h⟩
          · exact Or.inl ⟨by rw [hnone, Option.bind_none], fun hs => hrest hs.2⟩
          · rw [hlater, Option.bind_some]
            have hhead : ∀ u ∈ later.segments.head?,
                joint (memo.recall rule) s u = joint (memo.recall rule) s t := by
              obtain ⟨u, more, hmore, hu⟩ := joinOn_head hlater
              rw [hmore]
              rintro v ⟨⟩
              exact hu s
            exact (h.prepend hclips hs ht hsrun hhead).imp
              (And.imp_right fun hst hs => hst hs.1)
              (And.imp_left fun hst => ⟨hst, hrest⟩)

end Pass

/-- Joining comes to the same as a look at each pair of neighbours as they are,
and fails where that does. -/
theorem joinSegments_pairwise (rule : FilterRule) (memo : FilterMemo)
    {segments : List Segment}
    (hclips : Coherent (segments.flatMap Segment.clips))
    (hruns : ∀ s ∈ segments, s.IsCollapsed) :
    (segments.IsChain (IsDecided rule memo) →
      ∃ r, (joinSegments rule segments).run' memo = .ok r ∧
        JoinsPairwise rule memo segments r) ∧
    (¬segments.IsChain (IsDecided rule memo) →
      (joinSegments rule segments).run' memo = .error .integerTooLarge) := by
  have hwithin := Segment.within_of_subset
    (List.Subset.refl (segments.flatMap Segment.clips))
  rw [(answers_joinSegments hclips hwithin).run'_eq]
  rcases joinAll_pairwise rule memo hclips hwithin hruns with
    ⟨hnone, hundecided⟩ | ⟨hdecided, r, hr, hpairwise⟩
  · rw [hnone]
    exact ⟨fun h => absurd h hundecided, fun _ => rfl⟩
  · rw [hr]
    exact ⟨fun _ => ⟨r, rfl, hpairwise⟩, fun h => absurd hdecided h⟩

theorem joinSegments_pairwise_halves :
    Coherent ((firstSegments ++ secondSegments).flatMap Segment.clips) ∧
      (∀ s ∈ firstSegments ++ secondSegments, s.IsCollapsed) ∧
      (firstSegments ++ secondSegments).IsChain
        (IsDecided (Defaults.effective {}) []) ∧
      ∃ r, (joinSegments (Defaults.effective {})
          (firstSegments ++ secondSegments)).run' [] = .ok r ∧
        JoinsPairwise (Defaults.effective {}) []
          (firstSegments ++ secondSegments) r := by
  have hhalves : Coherent [halves.1, halves.2] :=
    coherent_of_nodup (by decide)
  have hclips : Coherent
      ((firstSegments ++ secondSegments).flatMap Segment.clips) :=
    hhalves.mono (by simp [firstSegments, secondSegments, Segment.clips])
  have hruns : ∀ s ∈ firstSegments ++ secondSegments, s.IsCollapsed := by
    simp only [firstSegments, secondSegments, List.cons_append, List.nil_append,
      List.forall_mem_cons]
    refine ⟨?_, ?_, ?_, List.forall_mem_nil _⟩
    all_goals
      intro channel
      cases channel <;> exact .singleton _
  have hdecided : (firstSegments ++ secondSegments).IsChain
      (IsDecided (Defaults.effective {}) []) :=
    .cons_cons ⟨true, by decide +kernel⟩
      (.cons_cons ⟨true, by decide +kernel⟩ (.singleton _))
  exact ⟨hclips, hruns, hdecided,
    (joinSegments_pairwise (Defaults.effective {}) [] hclips hruns).1 hdecided⟩

/-- Two empty segments, the first of which ends beyond the range of binary64. -/
def farApart : List Segment :=
  [{ start := 0, stop := .int (10 ^ 400) },
    { start := .float (Binary64.ofRatio false unitsInOne 2), stop := 1 }]

/-- Neighbours are not kept apart where the time between them is beyond the
range of binary64: joining fails. -/
theorem joinSegments_farApart :
    Coherent (farApart.flatMap Segment.clips) ∧
      (∀ s ∈ farApart, s.IsCollapsed) ∧
      (joinSegments (Defaults.effective {}) farApart).run' [] =
        .error .integerTooLarge := by
  refine ⟨coherent_of_nodup (by decide), ?_, ?_⟩
  · simp only [farApart, List.forall_mem_cons]
    refine ⟨?_, ?_, List.forall_mem_nil _⟩
    all_goals
      intro channel
      cases channel <;> exact .nil
  · have hfar : closeTimes (.int (10 ^ 400))
        (.float (Binary64.ofRatio false unitsInOne 2)) =
          .error .integerTooLarge := by decide +kernel
    simp only [farApart, joinSegments, joinFrom, hfar]
    rfl

end Montage
