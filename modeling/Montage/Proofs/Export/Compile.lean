import Montage.Proofs.Export.Plan

/-!
The two ways to a result: copying where there is a copy plan, rendering elsewhere.
-/

namespace Montage

namespace Snapshot

variable {s : Snapshot} {infos : Option (List (String × MediaInfo))}
  {rule : Option FilterRule} {r : ExportResult}

/-- The ways to make a result: windows of a copy plan are copied, or a graph is
rendered. -/
inductive Made (s : Snapshot) (infos : Option (List (String × MediaInfo)))
    (rule : Option FilterRule) (segments : List Segment) (r : ExportResult) : Prop
  | copied (plan : CopyPlan)
      (found : s.copyPlan infos rule segments = .ok (some plan))
      (copied_eq : r.copied = true) (inputs_eq : r.inputs = [plan.media])
      (warning_eq : r.warning = plan.warning)
  | rendered (g : GraphContext) (graph : GraphPlan)
      (absent : s.copyPlan infos rule segments = .ok none)
      (sources_eq : g.sources = s.sources infos)
      (found : g.plan segments = .ok (some graph))
      (copied_eq : r.copied = false) (inputs_eq : r.inputs = graph.inputs)
      (warning_eq : r.warning = graph.warning)

theorem copied_of_copyResult {joined : Joined} {plan : CopyPlan}
    (h : s.copyResult joined plan = .ok r) :
    r.copied = true ∧ r.segments = joined.segments ∧ r.inputs = [plan.media] ∧
      r.warning = plan.warning := by
  simp only [copyResult, bind_eq_ok] at h
  obtain ⟨command, -, width, -, height, -, h⟩ := h
  obtain rfl := Except.ok.inj h
  exact ⟨rfl, rfl, rfl, rfl⟩

/-- Rendering asks for a graph, and gives a result just when there is one. -/
theorem rendered_of_renderResult {joined : Joined} {o : Option ExportResult}
    (h : s.renderResult infos rule joined = .ok o) :
    ∃ g : GraphContext, g.sources = s.sources infos ∧
      (o = none ∧ g.plan joined.segments = .ok none ∨
        ∃ r graph, o = some r ∧ g.plan joined.segments = .ok (some graph) ∧
          r.copied = false ∧ r.segments = joined.segments ∧
          r.inputs = graph.inputs ∧ r.warning = graph.warning) := by
  simp only [renderResult, bind_eq_ok] at h
  obtain ⟨⟨width, height⟩, -, plan, hplan, h⟩ := h
  refine ⟨⟨s.sources infos, s.settings, s.ruleFor rule, width, height⟩, rfl, ?_⟩
  rcases plan with _ | graph
  · exact Or.inl ⟨(Except.ok.inj h).symm, hplan⟩
  · simp only [bind_eq_ok] at h
    obtain ⟨command, -, h⟩ := h
    obtain rfl := Except.ok.inj h
    exact Or.inr ⟨_, graph, rfl, hplan, rfl, rfl, rfl, rfl⟩

/-- How a result is made, or why there is none. -/
theorem compile_made {o : Option ExportResult} (h : s.compile infos rule = .ok o) :
    o = none ∧ (s.clips = [] ∨ s.planSegments infos rule = .ok none) ∨
      ∃ joined, s.planSegments infos rule = .ok (some joined) ∧
        (o = none ∧ (joined.segments = [] ∨ ∃ g : GraphContext,
            g.sources = s.sources infos ∧ g.plan joined.segments = .ok none) ∨
          ∃ r, o = some r ∧ r.segments = joined.segments ∧
            joined.segments ≠ [] ∧ s.Made infos rule joined.segments r) := by
  simp only [compile] at h
  split at h
  · next hempty => exact Or.inl ⟨(Except.ok.inj h).symm, Or.inl (List.isEmpty_iff.1 hempty)⟩
  · simp only [bind_eq_ok] at h
    obtain ⟨joined, hjoined, h⟩ := h
    rcases joined with _ | joined
    · exact Or.inl ⟨(Except.ok.inj h).symm, Or.inr hjoined⟩
    · refine Or.inr ⟨joined, hjoined, ?_⟩
      simp only at h
      split at h
      · next hnil =>
          exact Or.inl ⟨(Except.ok.inj h).symm, Or.inl (List.isEmpty_iff.1 hnil)⟩
      · next hne =>
          simp only [bind_eq_ok] at h
          obtain ⟨plan, hplan, h⟩ := h
          rw [List.isEmpty_iff] at hne
          rcases plan with _ | plan
          · obtain ⟨g, hg, ⟨ho, hnone⟩ | ⟨r, graph, ho, hgraph, hr, hsegments, hinputs,
              hwarning⟩⟩ := rendered_of_renderResult h
            · exact Or.inl ⟨ho, Or.inr ⟨g, hg, hnone⟩⟩
            · exact Or.inr ⟨r, ho, hsegments, hne,
                .rendered g graph hplan hg hgraph hr hinputs hwarning⟩
          · simp only [bind_eq_ok] at h
            obtain ⟨r, hr, h⟩ := h
            obtain ⟨hcopied, hsegments, hinputs, hwarning⟩ := copied_of_copyResult hr
            exact Or.inr ⟨r, (Except.ok.inj h).symm, hsegments, hne,
              .copied plan hplan hcopied hinputs hwarning⟩

/-- A result is copied when there is a copy plan, else it is rendered. -/
theorem compile_cases (h : s.compile infos rule = .ok (some r)) :
    ∃ joined, s.planSegments infos rule = .ok (some joined) ∧
      r.segments = joined.segments ∧ joined.segments ≠ [] ∧
      ((∃ plan, s.copyPlan infos rule joined.segments = .ok (some plan) ∧
          r.copied = true) ∨
        s.copyPlan infos rule joined.segments = .ok none ∧ r.copied = false) := by
  obtain ⟨ho, -⟩ | ⟨joined, hjoined, ⟨ho, -⟩ | ⟨r', ho, hsegments, hne, hmade⟩⟩ :=
    compile_made h
  · simp only [reduceCtorEq] at ho
  · simp only [reduceCtorEq] at ho
  · obtain rfl := Option.some.inj ho
    refine ⟨joined, hjoined, hsegments, hne, ?_⟩
    cases hmade with
    | copied plan hplan hcopied _ _ => exact Or.inl ⟨plan, hplan, hcopied⟩
    | rendered _ _ hnone _ _ hcopied _ _ => exact Or.inr ⟨hnone, hcopied⟩

/-- Where copying is allowed, the plan is the planner's; else there is none. -/
theorem copyPlan_cases {segments : List Segment} {plan : CopyPlan}
    (h : s.copyPlan infos rule segments = .ok (some plan)) :
    s.settings.mayCopy = true ∧
      CopyContext.plan ⟨s.sources infos, s.ruleFor rule⟩ segments =
        .ok (some plan) := by
  simp only [copyPlan] at h
  split at h
  · next hmay => exact ⟨hmay, h⟩
  · simp at h

end Snapshot

end Montage
