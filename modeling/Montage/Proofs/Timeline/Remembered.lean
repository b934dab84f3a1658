import Montage.Proofs.Timeline.Recall

/-!
Joining as the memo has it in the end.

A memo only grows: what it remembers for an id stays.  So all that is looked up on the way is what
the memo gives in the end, whether or not the clips of one id are one clip.
-/

namespace Montage

/-- All that the earlier memo remembers is remembered by this one. -/
def FilterMemo.Extends (later memo : FilterMemo) : Prop :=
  ∀ id e, memo.find? (fun e => e.1 == id) = some e → later.find? (fun e => e.1 == id) = some e

theorem FilterMemo.Extends.refl (memo : FilterMemo) : memo.Extends memo := fun _ _ h => h

theorem FilterMemo.Extends.trans {first second third : FilterMemo} (h : third.Extends second)
    (h' : second.Extends first) : third.Extends first :=
  fun id e he => h id e (h' id e he)

/-- What a step gives is its answer with the filters that the memo gives from then on. -/
def GivesLate {α : Type} (rule : FilterRule) (step : Recalling α)
    (answer : FilterRule → Option α) : Prop :=
  ∀ memo a memo', step.run memo = .ok (a, memo') → memo'.Extends memo ∧
    ∀ later : FilterMemo, later.Extends memo' → answer (later.recall rule) = some a

namespace GivesLate

variable {α β : Type} {rule : FilterRule}

theorem pure (a : α) : GivesLate rule (pure a) fun _ => some a := by
  intro memo b memo' h
  obtain ⟨rfl, rfl⟩ := Prod.mk.inj (Except.ok.inj h)
  exact ⟨.refl _, fun _ _ => rfl⟩

theorem bind {x : Recalling α} {y : FilterRule → Option α} {f : α → Recalling β}
    {g : α → FilterRule → Option β} (hx : GivesLate rule x y)
    (hf : ∀ a, GivesLate rule (f a) (g a)) :
    GivesLate rule (x >>= f) fun known => (y known).bind fun a => g a known := by
  intro memo b memo'' h
  rw [StateT.run_bind, bind_eq_ok] at h
  obtain ⟨⟨a, memo'⟩, hrun, h⟩ := h
  obtain ⟨hgrown, hanswer⟩ := hx memo a memo' hrun
  obtain ⟨hgrown', hanswer'⟩ := hf a memo' b memo'' h
  refine ⟨hgrown'.trans hgrown, ?_⟩
  intro later hlater
  simp only [hanswer later (hlater.trans hgrown'), Option.bind_some, hanswer' later hlater]

theorem lift (x : Except Fault α) : GivesLate rule (liftM x) fun _ => x.toOption := by
  intro memo a memo' h
  cases x with
  | error f =>
      have hfail : (liftM (Except.error f : Except Fault α) : Recalling α).run memo =
          .error f := rfl
      rw [hfail] at h
      simp only [reduceCtorEq] at h
  | ok b =>
      obtain ⟨rfl, rfl⟩ := Prod.mk.inj (Except.ok.inj h)
      exact ⟨.refl _, fun _ _ => rfl⟩

theorem ite {c : Prop} [Decidable c] {x x' : Recalling α} {y y' : FilterRule → Option α}
    (h : GivesLate rule x y) (h' : GivesLate rule x' y') :
    GivesLate rule (if c then x else x') fun known => if c then y known else y' known := by
  split
  · exact h
  · exact h'

/-- The filters of a clip are those that its id keeps. -/
theorem lookUp (c : Clip) : GivesLate rule (lookUp rule c) fun known => some (known c) := by
  intro memo e memo' h
  rcases hfind : memo.find? (fun e => e.1 == c.id) with _ | e'
  · rw [run_lookUp_of_none hfind] at h
    obtain ⟨rfl, rfl⟩ := Prod.mk.inj (Except.ok.inj h)
    constructor
    · intro id e he
      have hne : c.id ≠ id := by
        rintro rfl
        rw [hfind] at he
        simp only [reduceCtorEq] at he
      rw [List.find?_cons_of_neg (by simpa using hne)]
      exact he
    · intro later hlater
      have hkept := hlater c.id (c.id, rule c) (List.find?_cons_of_pos (beq_self_eq_true _))
      simp only [FilterMemo.recall, hkept, Option.map_some, Option.getD_some]
  · rw [run_lookUp_of_some hfind] at h
    obtain ⟨rfl, rfl⟩ := Prod.mk.inj (Except.ok.inj h)
    refine ⟨.refl _, ?_⟩
    intro later hlater
    simp only [FilterMemo.recall, hlater c.id e' hfind, Option.map_some, Option.getD_some]

end GivesLate

section Steps

variable {rule : FilterRule}

theorem givesLate_recalled (prev next : Option Clip) (boundary : Number) (channel : Channel) :
    GivesLate rule (Decision.recalled rule prev next boundary channel)
      fun known => (Decision.between known prev next boundary channel).toOption := by
  rcases prev with _ | p <;> rcases next with _ | n
  · exact .pure _
  · exact .pure _
  · exact .pure _
  · simp only [Decision.recalled, Decision.between]
    rcases hid : p.id == n.id
    · simp only [Bool.false_eq_true, ↓reduceIte, toOption_bind]
      apply GivesLate.bind (.lift _)
      intro near
      cases near with
      | false => exact .pure _
      | true =>
          simp only [↓reduceIte, toOption_bind]
          change GivesLate rule _ fun known =>
            ((some (known p)).bind fun ep => (some (known n)).bind fun en =>
              (sameRendering channel p n ep en).toOption.bind fun same =>
                (if same then .ok .continuous else .ok .different :
                  Except Fault Decision).toOption)
          refine .bind (.lookUp p) fun ep => .bind (.lookUp n) fun en =>
            .bind (.lift (sameRendering channel p n ep en)) fun same => ?_
          cases same <;> exact .pure _
    · exact .pure _

theorem givesLate_recalledJoint (s t : Segment) :
    GivesLate rule (recalledJoint rule s t) fun known => joint known s t := by
  apply GivesLate.bind (.lift _)
  intro near
  refine .ite ?_ (.pure _)
  refine .bind (givesLate_recalled _ _ _ _) fun audio =>
    .bind (givesLate_recalled _ _ _ _) fun video => ?_
  exact .ite (.pure _) (.pure _)

theorem givesLate_joinFrom (current : Segment) (rest : List Segment) :
    GivesLate rule (joinFrom rule current rest) fun known => joinOn known current rest := by
  induction rest generalizing current with
  | nil => exact .pure _
  | cons s rest ih =>
      rw [joinFrom_cons]
      apply GivesLate.bind (givesLate_recalledJoint current s)
      intro j
      cases j with
      | joined => exact ih (current.joined s)
      | apart b => exact .bind (ih s) fun later => .pure _

end Steps

/-- Segments are joined as with the filters that the memo gives in the end. -/
theorem joinAll_of_run {rule : FilterRule} {segments : List Segment} {memo memo' : FilterMemo}
    {r : Joined} (h : (joinSegments rule segments).run memo = .ok (r, memo')) :
    joinAll (memo'.recall rule) segments = some r := by
  cases segments with
  | nil =>
      obtain ⟨rfl, rfl⟩ := Prod.mk.inj (Except.ok.inj h)
      rfl
  | cons s rest => exact (givesLate_joinFrom s rest memo r memo' h).2 memo' (.refl memo')

/-- Where the clips of one id are one clip, the memo gives each its own filters. -/
theorem recall_of_run {rule : FilterRule} {segments : List Segment} {memo : FilterMemo}
    {r : Joined} (hclips : Coherent (segments.flatMap Segment.clips))
    (h : (joinSegments rule segments).run [] = .ok (r, memo)) :
    ∀ c ∈ segments.flatMap Segment.clips, memo.recall rule c = rule c := by
  have hanswers : Answers rule rule _ (joinSegments rule segments) (joinAll rule segments) :=
    answers_joinSegments hclips (Segment.within_of_subset (List.Subset.refl _))
  rcases hanswers [] fun _ _ => rfl with ⟨a, memo', -, hrun, hknows⟩ | ⟨-, hrun⟩
  · obtain ⟨-, rfl⟩ := Prod.mk.inj (Except.ok.inj (hrun.symm.trans h))
    exact hknows
  · simp only [h, reduceCtorEq] at hrun

end Montage
