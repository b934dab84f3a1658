import Montage.Proofs.Fault
import Montage.Proofs.Timeline.Joint

/-!
Joining with filters looked up once.

The filters of a clip are remembered by its id.  Where clips of one id are one clip, what is
remembered for a clip is what the rule gives it, so that every step answers as it would with all
filters known beforehand.
-/

namespace Montage

namespace OnlyTooLarge

theorem closeTimes (a b : Number) : OnlyTooLarge (closeTimes a b) :=
  bind (bind (sub a b) fun _ => ok _) fun _ => ok _

theorem finite? (d : Document) : OnlyTooLarge (finite? d) := by
  cases d with
  | number x => exact bind (toBinary64 x) fun _ => ok _
  | _ => exact ok _

theorem sameVolume (a b : Document) : OnlyTooLarge (sameVolume a b) := by
  refine bind (finite? a) ?_
  intro x
  refine bind (finite? b) ?_
  intro y
  cases x <;> cases y <;> exact ok _

theorem seamless (p n : Clip) (boundary : Number) :
    OnlyTooLarge (seamless p n boundary) := by
  have hsource : OnlyTooLarge (do
      Montage.closeTimes (← p.trim.add (← p.duration.mul p.playSpeed)) n.trim) :=
    bind (mul _ _) fun _ => bind (add _ _) fun _ => closeTimes _ _
  refine ite (ok false) (ite (ok false) (ite (ok false) ?_))
  refine bind (add _ _) fun _ => bind (closeTimes _ _) fun _ => ite (ok false) ?_
  exact bind (closeTimes _ _) fun _ => ite (ok false) hsource

theorem sameRendering (channel : Channel) (p n : Clip) (ep en : Effective) :
    OnlyTooLarge (sameRendering channel p n ep en) := by
  cases channel with
  | video => exact ok _
  | audio => exact ite (ok false) (ite (ok false) (sameVolume _ _))

end OnlyTooLarge

/-- The filters that a memo gives: those remembered, else those of the rule. -/
def FilterMemo.recall (memo : FilterMemo) (rule : FilterRule) : FilterRule :=
  fun c => ((memo.find? fun e => e.1 == c.id).map (·.2)).getD (rule c)

theorem run_lookUp_of_some {rule : FilterRule} {memo : FilterMemo} {c : Clip}
    {e : String × Effective} (h : memo.find? (fun e => e.1 == c.id) = some e) :
    (lookUp rule c).run memo = .ok (e.2, memo) := by
  simp only [lookUp, StateT.run_bind, StateT.run_get, pure_bind, h,
    StateT.run_pure]
  rfl

theorem run_lookUp_of_none {rule : FilterRule} {memo : FilterMemo} {c : Clip}
    (h : memo.find? (fun e => e.1 == c.id) = none) :
    (lookUp rule c).run memo = .ok (rule c, (c.id, rule c) :: memo) := by
  simp only [lookUp, StateT.run_bind, StateT.run_get, pure_bind, h,
    StateT.run_pure]
  rfl

/-- A memo gives each of the clips the filters known beforehand. -/
def Knows (rule known : FilterRule) (clips : List Clip) (memo : FilterMemo) :
    Prop :=
  ∀ c ∈ clips, memo.recall rule c = known c

/-- From memos that know the clips, a step gives the answer and leaves such a
memo; without an answer it fails. -/
def Answers {α : Type} (rule known : FilterRule) (clips : List Clip)
    (step : Recalling α) (answer : Option α) : Prop :=
  ∀ memo, Knows rule known clips memo →
    (∃ a memo', answer = some a ∧ step.run memo = .ok (a, memo') ∧
        Knows rule known clips memo') ∨
      answer = none ∧ step.run memo = .error .integerTooLarge

namespace Answers

variable {α β : Type} {rule known : FilterRule} {clips : List Clip}

theorem pure (a : α) : Answers rule known clips (pure a) (some a) :=
  fun memo hmemo => Or.inl ⟨a, memo, rfl, rfl, hmemo⟩

theorem bind {x : Recalling α} {y : Option α} {f : α → Recalling β}
    {g : α → Option β} (hx : Answers rule known clips x y)
    (hf : ∀ a, y = some a → Answers rule known clips (f a) (g a)) :
    Answers rule known clips (x >>= f) (y.bind g) := by
  intro memo hmemo
  rcases hx memo hmemo with ⟨a, memo', rfl, hrun, hmemo'⟩ | ⟨rfl, hrun⟩
  · rw [StateT.run_bind, hrun]
    exact hf a rfl memo' hmemo'
  · rw [StateT.run_bind, hrun]
    exact Or.inr ⟨rfl, rfl⟩

theorem lift {x : Except Fault α} (hx : OnlyTooLarge x) :
    Answers rule known clips (liftM x) x.toOption := by
  intro memo hmemo
  cases x with
  | ok a => exact Or.inl ⟨a, memo, rfl, rfl, hmemo⟩
  | error f =>
      obtain rfl := hx f rfl
      exact Or.inr ⟨rfl, rfl⟩

theorem ite {c : Prop} [Decidable c] {x x' : Recalling α} {y y' : Option α}
    (h : Answers rule known clips x y) (h' : Answers rule known clips x' y') :
    Answers rule known clips (if c then x else x') (if c then y else y') := by
  split
  · exact h
  · exact h'

/-- What a memo gives for a clip of the timeline is what it is known to have. -/
theorem lookUp (hclips : Coherent clips) {c : Clip} (hc : c ∈ clips) :
    Answers rule known clips (lookUp rule c) (some (known c)) := by
  intro memo hmemo
  have hknown := hmemo c hc
  simp only [FilterMemo.recall] at hknown
  left
  rcases hfind : memo.find? (fun e => e.1 == c.id) with _ | e
  · have hrule : rule c = known c := by
      rw [hfind] at hknown
      exact hknown
    refine ⟨rule c, (c.id, rule c) :: memo, congrArg some hrule.symm,
      run_lookUp_of_none hfind, ?_⟩
    intro d hd
    rcases eq_or_ne d.id c.id with hid | hid
    · obtain rfl := hclips d hd c hc hid
      simpa [FilterMemo.recall] using hrule
    · simpa [FilterMemo.recall, hid.symm] using hmemo d hd
  · have he : e.2 = known c := by
      rw [hfind] at hknown
      exact hknown
    exact ⟨e.2, memo, congrArg some he.symm, run_lookUp_of_some hfind, hmemo⟩

end Answers

section Steps

variable {rule known : FilterRule} {clips : List Clip}

theorem answers_recalled (hclips : Coherent clips) {prev next : Option Clip}
    (hprev : ∀ c ∈ prev, c ∈ clips) (hnext : ∀ c ∈ next, c ∈ clips)
    (boundary : Number) (channel : Channel) :
    Answers rule known clips (Decision.recalled rule prev next boundary channel)
      (Decision.between known prev next boundary channel).toOption := by
  rcases prev with _ | p <;> rcases next with _ | n
  · exact .pure _
  · exact .pure _
  · exact .pure _
  · simp only [Decision.recalled, Decision.between]
    rcases hid : p.id == n.id
    · simp only [Bool.false_eq_true, ↓reduceIte, toOption_bind]
      refine .bind (.lift (.seamless p n boundary)) ?_
      intro near _
      cases near with
      | false => exact .pure _
      | true =>
          simp only [↓reduceIte, toOption_bind]
          change Answers rule known clips _
            ((some (known p)).bind fun ep => (some (known n)).bind fun en =>
              (sameRendering channel p n ep en).toOption.bind fun same =>
                (if same then .ok .continuous else .ok .different :
                  Except Fault Decision).toOption)
          refine .bind (.lookUp hclips (hprev p rfl)) fun ep _ =>
            .bind (.lookUp hclips (hnext n rfl)) fun en _ =>
              .bind (.lift (.sameRendering channel p n ep en)) fun same _ => ?_
          cases same <;> exact .pure _
    · exact .pure _

/-- The joint of two neighbours, with filters looked up once. -/
def recalledJoint (rule : FilterRule) (s t : Segment) : Recalling Joint := do
  if ← closeTimes s.stop t.start then
    let audio ← Decision.recalled rule (s.tail? .audio) (t.winner? .audio)
      t.start .audio
    let video ← Decision.recalled rule (s.tail? .video) (t.winner? .video)
      t.start .video
    if audio.agrees && video.agrees then return .joined
    return .apart (audio.blocks video)
  return .apart false

theorem joinFrom_cons (rule : FilterRule) (current s : Segment)
    (rest : List Segment) :
    joinFrom rule current (s :: rest) = (do
      match ← recalledJoint rule current s with
      | .joined => joinFrom rule (current.joined s) rest
      | .apart blocked =>
          let later ← joinFrom rule s rest
          return ⟨current :: later.segments, blocked || later.blocked⟩) := by
  simp only [joinFrom, recalledJoint, bind_assoc]
  congr 1
  funext near
  cases near with
  | false => simp
  | true =>
      simp only [↓reduceIte, bind_assoc]
      congr 1
      funext audio
      congr 1
      funext video
      split <;> simp

/-- All clips that the segments play are among the given ones. -/
theorem answers_recalledJoint (hclips : Coherent clips) {s t : Segment}
    (hs : s.Within clips) (ht : t.Within clips) :
    Answers rule known clips (recalledJoint rule s t) (joint known s t) := by
  have htail : ∀ channel, ∀ c ∈ s.tail? channel, c ∈ clips :=
    fun channel c hc => hs channel c (List.mem_of_getLast? hc)
  have hwinner : ∀ channel, ∀ c ∈ t.winner? channel, c ∈ clips :=
    fun channel c hc => ht channel c (List.mem_of_head? hc)
  refine .bind (.lift (.closeTimes s.stop t.start)) ?_
  intro near _
  refine .ite ?_ (.pure _)
  refine .bind (answers_recalled hclips (htail _) (hwinner _) _ _) fun audio _ =>
    .bind (answers_recalled hclips (htail _) (hwinner _) _ _) fun video _ => ?_
  exact .ite (.pure _) (.pure _)

theorem answers_joinFrom (hclips : Coherent clips) {current : Segment}
    {rest : List Segment} (hcurrent : current.Within clips)
    (hrest : ∀ t ∈ rest, t.Within clips) :
    Answers rule known clips (joinFrom rule current rest)
      (joinOn known current rest) := by
  induction rest generalizing current with
  | nil => exact .pure _
  | cons s rest ih =>
      obtain ⟨hs, hrest⟩ := List.forall_mem_cons.1 hrest
      rw [joinFrom_cons]
      refine .bind (answers_recalledJoint hclips hcurrent hs) ?_
      intro j _
      cases j with
      | joined => exact ih (hcurrent.joined hs) hrest
      | apart b => exact .bind (ih hs hrest) fun later _ => .pure _

/-- Joining with filters looked up once answers as with all of them known. -/
theorem answers_joinSegments (hclips : Coherent clips)
    {segments : List Segment} (hwithin : ∀ t ∈ segments, t.Within clips) :
    Answers rule known clips (joinSegments rule segments)
      (joinAll known segments) := by
  cases segments with
  | nil => exact .pure _
  | cons s rest =>
      obtain ⟨hs, hrest⟩ := List.forall_mem_cons.1 hwithin
      exact answers_joinFrom hclips hs hrest

end Steps

/-- What a step gives from a memo, or the one fault it may end with. -/
def outcome {α : Type} (answer : Option α) : Except Fault α :=
  match answer with
  | some a => .ok a
  | none => .error .integerTooLarge

theorem map_outcome_eq_ok {α β : Type} {answer : Option α} {f : α → β} {b : β} :
    (outcome answer).map f = .ok b ↔ ∃ a, answer = some a ∧ f a = b := by
  cases answer <;> simp [outcome, Except.map]

theorem Answers.run'_eq {α : Type} {rule : FilterRule} {clips : List Clip}
    {step : Recalling α} {answer : Option α} {memo : FilterMemo}
    (h : Answers rule (memo.recall rule) clips step answer) :
    step.run' memo = outcome answer := by
  rcases h memo fun _ _ => rfl with ⟨a, memo', rfl, hrun, -⟩ | ⟨rfl, hrun⟩
  · simp only [StateT.run'_eq, hrun]
    rfl
  · simp only [StateT.run'_eq, hrun]
    rfl

/-- The clips that a segment plays. -/
def Segment.clips (s : Segment) : List Clip := s.video ++ s.audio

theorem Segment.within_of_subset {clips : List Clip} {segments : List Segment}
    (h : segments.flatMap Segment.clips ⊆ clips) :
    ∀ s ∈ segments, s.Within clips := by
  intro s hs channel c hc
  refine h (List.mem_flatMap.2 ⟨s, hs, ?_⟩)
  cases channel with
  | video => exact List.mem_append_left _ hc
  | audio => exact List.mem_append_right _ hc

theorem Segment.subset_of_within {clips : List Clip} {segments : List Segment}
    (h : ∀ s ∈ segments, s.Within clips) :
    segments.flatMap Segment.clips ⊆ clips := by
  intro c hc
  obtain ⟨s, hs, hc⟩ := List.mem_flatMap.1 hc
  rcases List.mem_append.1 hc with hc | hc
  · exact h s hs .video c hc
  · exact h s hs .audio c hc

/-- Joining does not depend on its order: two lists of segments may be joined
each for itself before they are joined together, and what is joined already
stays as it is. -/
theorem joinSegments_append (rule : FilterRule) (memo : FilterMemo)
    {first second : List Segment}
    (hclips : Coherent ((first ++ second).flatMap Segment.clips)) :
    (do
      let a ← joinSegments rule first
      let b ← joinSegments rule second
      joinSegments rule (a.segments ++ b.segments)).run' memo =
        (joinSegments rule (first ++ second)).run' memo ∧
      (do
        let a ← joinSegments rule first
        joinSegments rule a.segments).run' memo =
          (joinSegments rule first).run' memo := by
  have hwithin := Segment.within_of_subset
    (List.Subset.refl ((first ++ second).flatMap Segment.clips))
  obtain ⟨hfirst, hsecond⟩ := List.forall_mem_append.1 hwithin
  constructor
  · rw [(answers_joinSegments hclips hwithin).run'_eq,
      ← joinAll_append hclips hfirst hsecond]
    refine Answers.run'_eq (.bind (answers_joinSegments hclips hfirst) ?_)
    intro a ha
    refine .bind (answers_joinSegments hclips hsecond) ?_
    intro b hb
    exact answers_joinSegments hclips (List.forall_mem_append.2
      ⟨within_of_joinAll hclips hfirst ha, within_of_joinAll hclips hsecond hb⟩)
  · rw [(answers_joinSegments hclips hfirst).run'_eq,
      ← joinAll_joinAll hclips hfirst]
    refine Answers.run'_eq (.bind (answers_joinSegments hclips hfirst) ?_)
    intro a ha
    exact answers_joinSegments hclips (within_of_joinAll hclips hfirst ha)

/-- A film in two halves, the second from where the first one ends. -/
def halves : Clip × Clip :=
  ({ id := "first", mediaId := "film", track := 0, start := 0
     duration := 1000, speed := some 1 },
    { id := "second", mediaId := "film", track := 0, start := 1000
      duration := 1000, trimStart := some 1000, speed := some 1 })

/-- The first half, cut once more. -/
def firstSegments : List Segment :=
  [{ start := 0, stop := 500, video := [halves.1], audio := [halves.1] },
    { start := 500, stop := 1000, video := [halves.1], audio := [halves.1] }]

def secondSegments : List Segment :=
  [{ start := 1000, stop := 2000, video := [halves.2], audio := [halves.2] }]

theorem joinSegments_halves :
    Coherent ((firstSegments ++ secondSegments).flatMap Segment.clips) ∧
      (do
        let a ← joinSegments (Defaults.effective {}) firstSegments
        let b ← joinSegments (Defaults.effective {}) secondSegments
        joinSegments (Defaults.effective {}) (a.segments ++ b.segments)).run' [] =
          (joinSegments (Defaults.effective {})
            (firstSegments ++ secondSegments)).run' [] := by
  have hhalves : Coherent [halves.1, halves.2] :=
    coherent_of_nodup (by decide)
  have hclips : Coherent
      ((firstSegments ++ secondSegments).flatMap Segment.clips) :=
    hhalves.mono (by simp [firstSegments, secondSegments, Segment.clips])
  exact ⟨hclips, (joinSegments_append (Defaults.effective {}) [] hclips).1⟩

end Montage
