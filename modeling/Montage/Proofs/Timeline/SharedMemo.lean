import Montage.Proofs.Timeline.Recall

/-!
Calls that share one memo.

Decisions and joins may be asked for one after the other, all with the filters that were looked up
so far.  Whatever is remembered for a clip is what the rule gives it, also after a call that ended
in a fault; so no call can tell the memo that it is given from an empty one.
-/

namespace Montage

/-- What can be asked for. -/
inductive JoinCall where
  | decide (prev next : Option Clip) (boundary : Number) (channel : Channel)
  | join (segments : List Segment)

inductive JoinAnswer where
  | decision (d : Decision)
  | joined (j : Joined)

namespace JoinCall

/-- The clips that a call is about. -/
def clips : JoinCall → List Clip
  | decide prev next _ _ => prev.toList ++ next.toList
  | join segments => segments.flatMap Segment.clips

def perform (rule : FilterRule) : JoinCall → Recalling JoinAnswer
  | decide prev next boundary channel => do
    return .decision (← Decision.recalled rule prev next boundary channel)
  | join segments => do return .joined (← joinSegments rule segments)

/-- The answer of a call with the filters of all clips known beforehand. -/
def answer? (rule : FilterRule) : JoinCall → Option JoinAnswer
  | decide prev next boundary channel =>
    (Decision.between rule prev next boundary channel).toOption.map .decision
  | join segments => (joinAll rule segments).map .joined

end JoinCall

/-- What is remembered of earlier calls once a call has ended in a fault.  How far the call got is
left open: it has looked up some of its clips, and these are remembered too. -/
structure Leftover (rule : FilterRule) where
  memoAfter : JoinCall → FilterMemo → FilterMemo
  learned : ∀ call memo, ∃ looked, looked ⊆ call.clips ∧
    memoAfter call memo = looked.map (fun c => (c.id, rule c)) ++ memo

namespace Leftover

/-- The answers of calls made one after the other.  Each call finds the memo that the one before
it has left. -/
def answers {rule : FilterRule} (left : Leftover rule) :
    FilterMemo → List JoinCall → List (Except Fault JoinAnswer)
  | _, [] => []
  | memo, call :: rest =>
    match (call.perform rule).run memo with
    | .ok (a, memo') => .ok a :: left.answers memo' rest
    | .error f => .error f :: left.answers (left.memoAfter call memo) rest

end Leftover

section Calls

variable {rule known : FilterRule} {clips : List Clip}

theorem JoinCall.answers_perform (hclips : Coherent clips) {call : JoinCall}
    (hwithin : call.clips ⊆ clips) :
    Answers rule known clips (call.perform rule) (call.answer? known) := by
  cases call with
  | decide prev next boundary channel =>
      have hprev : ∀ c ∈ prev, c ∈ clips :=
        fun c hc => hwithin (List.mem_append_left _ (Option.mem_toList.2 hc))
      have hnext : ∀ c ∈ next, c ∈ clips :=
        fun c hc => hwithin (List.mem_append_right _ (Option.mem_toList.2 hc))
      rw [answer?, Option.map_eq_bind]
      exact .bind (answers_recalled hclips hprev hnext boundary channel) fun d _ => .pure _
  | join segments =>
      rw [answer?, Option.map_eq_bind]
      exact .bind (answers_joinSegments hclips (Segment.within_of_subset hwithin)) fun j _ =>
        .pure _

theorem knows_nil : Knows rule rule clips [] := fun _ _ => rfl

/-- What is looked up of the clips is what is known of them. -/
theorem Knows.learn (hclips : Coherent clips) {memo : FilterMemo}
    (hmemo : Knows rule rule clips memo) {looked : List Clip} (hlooked : looked ⊆ clips) :
    Knows rule rule clips (looked.map (fun c => (c.id, rule c)) ++ memo) := by
  induction looked with
  | nil => exact hmemo
  | cons d rest ih =>
      obtain ⟨hd, hrest⟩ := List.cons_subset.1 hlooked
      intro c hc
      by_cases hid : d.id = c.id
      · obtain rfl := hclips d hd c hc hid
        simp [FilterMemo.recall]
      · have hlater := ih hrest c hc
        simpa [FilterMemo.recall, hid] using hlater

/-- From a memo that knows the clips, every call is answered as from an empty one. -/
theorem Leftover.answers_of_knows (left : Leftover rule) (hclips : Coherent clips)
    {calls : List JoinCall} (hwithin : ∀ call ∈ calls, call.clips ⊆ clips) {memo : FilterMemo}
    (hmemo : Knows rule rule clips memo) :
    left.answers memo calls = calls.map fun call => (call.perform rule).run' [] := by
  induction calls generalizing memo with
  | nil => rfl
  | cons call rest ih =>
      obtain ⟨hcall, hrest⟩ := List.forall_mem_cons.1 hwithin
      have hanswers : Answers rule rule clips (call.perform rule) (call.answer? rule) :=
        JoinCall.answers_perform hclips hcall
      have hfresh : (call.perform rule).run' [] = outcome (call.answer? rule) :=
        hanswers.run'_eq
      rw [List.map_cons, hfresh, answers]
      rcases hanswers memo hmemo with ⟨a, memo', ha, hrun, hmemo'⟩ | ⟨hnone, hrun⟩
      · rw [hrun, ha, ← ih hrest hmemo']
        rfl
      · obtain ⟨looked, hlooked, hleft⟩ := left.learned call memo
        have hmemo' : Knows rule rule clips (left.memoAfter call memo) := by
          rw [hleft]
          exact hmemo.learn hclips fun c hc => hcall (hlooked hc)
        rw [hrun, hnone, ← ih hrest hmemo']
        rfl

end Calls

/-- A memo shared by calls is not seen in any of their answers, where the clips of one id are one
clip. -/
theorem answers_eq_fresh {rule : FilterRule} (left : Leftover rule) {calls : List JoinCall}
    (hclips : Coherent (calls.flatMap JoinCall.clips)) :
    left.answers [] calls = calls.map fun call => (call.perform rule).run' [] := by
  apply left.answers_of_knows hclips _ knows_nil
  intro call hcall c hc
  exact List.mem_flatMap.2 ⟨call, hcall, hc⟩

/-- A first half that is too loud for its volume to be compared. -/
def loudHalf : Clip := { halves.1 with id := "loud", volume := some (.int (10 ^ 400)) }

/-- A call that ends in a fault has looked up all of its clips. -/
def rememberAll (rule : FilterRule) : Leftover rule where
  memoAfter call memo := call.clips.reverse.map (fun c => (c.id, rule c)) ++ memo
  learned call _ := ⟨call.clips.reverse, fun _ hc => List.mem_reverse.1 hc, rfl⟩

/-- A decision that looks up both halves, one that fails over a volume, and joins after it. -/
def sharedCalls : List JoinCall :=
  [.decide (some halves.1) (some halves.2) 1000 .video,
    .decide (some loudHalf) (some halves.2) 1000 .audio,
    .join (firstSegments ++ secondSegments),
    .decide (some loudHalf) (some halves.2) 1000 .video]

theorem answers_sharedCalls :
    Coherent (sharedCalls.flatMap JoinCall.clips) ∧
      (rememberAll (Defaults.effective {})).answers [] sharedCalls =
        sharedCalls.map (fun call => (call.perform (Defaults.effective {})).run' []) ∧
      sharedCalls.map (fun call =>
        ((call.perform (Defaults.effective {})).run' []).toOption.isSome) =
          [true, false, true, true] := by
  have hclips : Coherent (sharedCalls.flatMap JoinCall.clips) := by
    have hthree : Coherent [halves.1, halves.2, loudHalf] := coherent_of_nodup (by decide)
    apply hthree.mono
    simp [sharedCalls, JoinCall.clips, firstSegments, secondSegments, Segment.clips]
  exact ⟨hclips, answers_eq_fresh _ hclips, by decide +kernel⟩

end Montage
