import Montage.Proofs.Project.Total

/-!
Whole histories of a project.

Calls and edits alternate in any way.  As long as compiling ends in a fault nothing is kept, and the
next call compiles the snapshot that it finds.  The first compilation that ends without a fault is
the one that all later calls show, whatever the edits after it do.  A plan shows the clips and the
settings that it finds beside it, and may fail for these without losing the outcome.
-/

namespace Montage

/-- Two results of one compilation.  The clips and the media that they hold may have been changed
since, but no clip has got another id. -/
structure ExportResult.SameExport (r r' : ExportResult) : Prop where
  command : r'.command = r.command
  warning : r'.warning = r.warning
  copied : r'.copied = r.copied
  blocked : r'.blocked = r.blocked
  segments : r'.segments.map Segment.shown = r.segments.map Segment.shown
  inputs : r'.inputs.length = r.inputs.length
  width : r'.width = r.width
  height : r'.height = r.height

namespace ExportResult.SameExport

variable {r r' r'' : ExportResult}

theorem refl (r : ExportResult) : r.SameExport r := ⟨rfl, rfl, rfl, rfl, rfl, rfl, rfl, rfl⟩

theorem trans (h : r.SameExport r') (h' : r'.SameExport r'') : r.SameExport r'' where
  command := h'.command.trans h.command
  warning := h'.warning.trans h.warning
  copied := h'.copied.trans h.copied
  blocked := h'.blocked.trans h.blocked
  segments := h'.segments.trans h.segments
  inputs := h'.inputs.trans h.inputs
  width := h'.width.trans h.width
  height := h'.height.trans h.height

end ExportResult.SameExport

/-- The same outcome: nothing to export on both sides, or two results of one compilation. -/
abbrev SameOutcome : Option ExportResult → Option ExportResult → Prop :=
  Option.Rel ExportResult.SameExport

theorem SameOutcome.refl (result : Option ExportResult) : SameOutcome result result := by
  cases result with
  | none => exact .none
  | some r => exact .some (.refl r)

theorem SameOutcome.trans {first second third : Option ExportResult}
    (h : SameOutcome first second) (h' : SameOutcome second third) : SameOutcome first third := by
  cases h with
  | none => exact h'
  | some h =>
      cases h' with
      | some h' => exact .some (h.trans h')

section Shown

/-- A planned segment is made from what plans show of it. -/
theorem PlannedSegment.ofSegment_eq {s t : Segment} (h : t.shown = s.shown) :
    ofSegment t = ofSegment s := by
  simp only [Segment.shown, Prod.mk.injEq] at h
  obtain ⟨hstart, hstop, hvideo, haudio⟩ := h
  simp only [ofSegment, hstart, hstop, hvideo, haudio]

theorem PlannedSegment.mapM_ofSegment_eq {segments others : List Segment}
    (h : others.map Segment.shown = segments.map Segment.shown) :
    others.mapM ofSegment = segments.mapM ofSegment := by
  induction segments generalizing others with
  | nil =>
      obtain rfl := List.map_eq_nil_iff.1 h
      rfl
  | cons s rest ih =>
      obtain ⟨t, more, rfl, hs, hrest⟩ := List.map_eq_cons_iff.1 h
      rw [List.mapM_cons, List.mapM_cons, ofSegment_eq hs, ih hrest]

/-- The plan shows one outcome in one way. -/
theorem SameOutcome.ofResult_eq {result result' : Option ExportResult}
    (h : SameOutcome result result') (clips : List Clip) (settings : ExportSettings) :
    Plan.ofResult clips settings result' = Plan.ofResult clips settings result := by
  cases h with
  | none => rfl
  | some h =>
      simp only [Plan.ofResult, Option.map_some, Option.getD_some, Option.any_some,
        PlannedSegment.mapM_ofSegment_eq h.segments, h.copied, h.warning, h.blocked]

theorem SameOutcome.printout_eq {result result' : Option ExportResult}
    (h : SameOutcome result result') (quiet : Bool) :
    Project.printout quiet result' = Project.printout quiet result := by
  cases h with
  | none => rfl
  | some h =>
      have hcount := congrArg List.length h.segments
      rw [List.length_map, List.length_map] at hcount
      simp only [Project.printout, Project.headline, h.command, h.warning, h.copied, hcount]

/-- A printout shows an outcome: the command of a result, below its headline unless that is not
wanted. -/
structure Printout.Shows (quiet : Bool) (result : Option ExportResult) (out : Printout) :
    Prop where
  exported : out.exported = result.isSome
  command : ∀ r ∈ result, out.output =
    (if quiet then "" else Project.headline r ++ "\n") ++ r.command ++ "\n"
  warning : ∀ r ∈ result, out.errors = if r.warning then Project.audioWarning ++ "\n" else ""
  nothing : result = none → out.output = "" ∧ out.errors = "nothing to export\n"

theorem Printout.shows_printout (quiet : Bool) (result : Option ExportResult) :
    (Project.printout quiet result).Shows quiet result := by
  cases result with
  | none => exact ⟨rfl, nofun, nofun, fun _ => ⟨rfl, rfl⟩⟩
  | some r =>
      have hmem : ∀ r' ∈ some r, r' = r := fun r' h => (Option.some.inj h).symm
      exact ⟨rfl, fun r' h => hmem r' h ▸ rfl, fun r' h => hmem r' h ▸ rfl, nofun⟩

end Shown

namespace Project

/-- Edits of a snapshot and of settings.  They may do anything to these; of an outcome they may
change the clips and media that it holds, but they give no clip another id. -/
structure Edit where
  change : Project → Project
  keeps : ∀ p : Project, Option.Rel SameOutcome p.outcome (change p).outcome

namespace Edit

theorem refl_outcome (outcome : Option (Option ExportResult)) :
    Option.Rel SameOutcome outcome outcome := by
  cases outcome with
  | none => exact .none
  | some result => exact .some (.refl result)

/-- Any edit of the snapshot, its settings included. -/
def ofSnapshot (change : Snapshot → Snapshot) : Edit where
  change := Project.edit change
  keeps p := refl_outcome p.outcome

/-- Puts a preset over the settings; without such a preset nothing is done. -/
def ofPreset (id : String) : Edit where
  change p := (p.usePreset id).toOption.getD p
  keeps p := by
    rw [usePreset]
    cases p.snapshot.usePreset id with
    | error f => exact refl_outcome p.outcome
    | ok s => exact refl_outcome p.outcome

/-- An edit of media that is seen through the outcome. -/
def ofMedia (id : String) (change : Media → Media) : Edit where
  change := Project.changeMedia id change
  keeps p := by
    rcases houtcome : p.outcome with _ | _ | r
    · simp only [changeMedia, houtcome, Option.map_none]
      exact .none
    · simp only [changeMedia, houtcome, Option.map_none, Option.map_some]
      exact .some .none
    · simp only [changeMedia, houtcome, Option.map_some]
      exact .some (.some ⟨rfl, rfl, rfl, rfl, rfl, List.length_map _, rfl, rfl⟩)

theorem map_id_changeWhere {change : Clip → Clip} (hid : ∀ c, (change c).id = c.id)
    (test : Clip → Bool) (run : List Clip) :
    (changeWhere test change run).map Clip.id = run.map Clip.id := by
  rw [changeWhere, List.map_map]
  refine List.map_congr_left fun c _ => ?_
  rw [Function.comp_apply]
  split
  · exact hid c
  · rfl

/-- An edit of clips that is seen through the outcome. -/
def ofClip (id : String) (change : Clip → Clip) (hid : ∀ c, (change c).id = c.id) : Edit where
  change := Project.changeClip id change
  keeps p := by
    rw [changeClip]
    split
    · rcases houtcome : p.outcome with _ | _ | r
      · exact .none
      · exact .some .none
      · refine .some (.some ⟨rfl, rfl, rfl, rfl, ?_, rfl, rfl, rfl⟩)
        rw [List.map_map]
        refine List.map_congr_left fun s _ => ?_
        simp only [Function.comp_apply, Segment.shown, map_id_changeWhere hid]
    · exact refl_outcome p.outcome

end Edit

/-- What can be asked of a project. -/
inductive Call where
  | compile
  | plan
  | run (quiet : Bool)

/-- The answer to a call, or its fault. -/
inductive Answer where
  | result (x : Except Fault (Option ExportResult))
  | plan (x : Except Fault Plan)
  | printout (x : Except Fault Printout)

inductive Step where
  | call (c : Call)
  | edit (e : Edit)

/-- A call, with the project as the call found it and with its answer. -/
structure Entry where
  project : Project
  call : Call
  answer : Answer

namespace Call

/-- The answer of a call, and the project that it leaves. -/
def perform : Call → Project → Answer × Project
  | compile, p => Prod.map Answer.result id (Project.compile.run.run p)
  | plan, p => Prod.map Answer.plan id (Project.plan.run.run p)
  | run quiet, p => Prod.map Answer.printout id ((Project.run quiet).run.run p)

/-- The answer of a call when compiling ends in a fault. -/
def failed (f : Fault) : Call → Answer
  | compile => .result (.error f)
  | plan => .plan (.error f)
  | run _ => .printout (.error f)

end Call

/-- The calls of a project, in their order. -/
def history : Project → List Step → List Entry
  | _, [] => []
  | p, .edit e :: rest => history (e.change p) rest
  | p, .call c :: rest => ⟨p, c, (c.perform p).1⟩ :: history (c.perform p).2 rest

/-- The outcome of the first of these snapshots that can be compiled without a fault. -/
def firstOutcome (attempts : List Snapshot) : Option (Option ExportResult) :=
  attempts.findSome? fun s => (s.compile none none).toOption

namespace Entry

/-- A call shows an outcome: compiling gives it back, a printout has its command, and a plan has its
segments and flags.  All else in a plan, and whether there is one, goes by the clips and the
settings that the call found. -/
def Shows (e : Entry) (result : Option ExportResult) : Prop :=
  match e.call with
  | .compile => ∃ result', e.answer = .result (.ok result') ∧ SameOutcome result result'
  | .plan => ∃ answer, e.answer = .plan answer ∧
      Plan.Answers e.project.snapshot.clips e.project.settings result answer
  | .run quiet => ∃ out, e.answer = .printout (.ok out) ∧ out.Shows quiet result

/-- A call fails as its snapshot fails to compile, and leaves the project as it was. -/
def Fails (e : Entry) : Prop :=
  ∃ f, e.project.snapshot.compile none none = .error f ∧ e.answer = e.call.failed f ∧
    e.project.outcome = none ∧ (e.call.perform e.project).2 = e.project

/-- A call shows the outcome there is, or fails when there is none. -/
def Follows (e : Entry) : Option (Option ExportResult) → Prop
  | some result => e.Shows result
  | none => e.Fails

end Entry

section Calls

variable {p q : Project} {result : Option ExportResult} {f : Fault}

theorem compile_run_of_outcome (h : p.outcome = some result) :
    compile.run.run p = (.ok result, p) := by
  have hget : (get : Working Project).run.run p = (.ok p, p) := rfl
  rw [compile, Working.run_bind hget]
  simp only [h]
  rfl

theorem compile_run_error (hnew : p.outcome = none) (h : p.snapshot.compile none none = .error f) :
    compile.run.run p = (.error f, p) := by
  have hget : (get : Working Project).run.run p = (.ok p, p) := rfl
  rw [compile, Working.run_bind hget]
  simp only [hnew, h]
  rfl

/-- A fault in compiling is the fault of the call. -/
theorem perform_error (h : compile.run.run p = (.error f, q)) (c : Call) :
    c.perform p = (c.failed f, q) := by
  have hbind : ∀ {α : Type} (next : Option ExportResult → Working α),
      (compile >>= next).run.run p = (.error f, q) := by
    intro α next
    change (ExceptT.bindCont next (compile.run.run p).1 : StateM Project _).run
      (compile.run.run p).2 = _
    rw [h]
    rfl
  cases c with
  | compile =>
      rw [Call.perform, h]
      rfl
  | plan =>
      rw [Call.perform, plan, hbind]
      rfl
  | run quiet =>
      rw [Call.perform, run, hbind]
      rfl

/-- What a call shows of the result of compiling it shows of any result of that compilation. -/
theorem perform_ok {first : Option ExportResult} (h : compile.run.run p = (.ok result, q))
    (hq : q.snapshot = p.snapshot ∧ q.settings = p.settings) (hsame : SameOutcome first result)
    (c : Call) : (c.perform p).2 = q ∧ Entry.Shows ⟨p, c, (c.perform p).1⟩ first := by
  cases c with
  | compile =>
      rw [Call.perform, h]
      exact ⟨rfl, result, rfl, hsame⟩
  | plan =>
      rw [Call.perform, plan_run h, hq.1, hq.2, hsame.ofResult_eq]
      exact ⟨rfl, _, rfl, Plan.answers_ofResult _ _ first⟩
  | run quiet =>
      rw [Call.perform, run_run h, hsame.printout_eq]
      exact ⟨rfl, _, rfl, Printout.shows_printout quiet first⟩

theorem firstOutcome_append (past : List Snapshot) (s : Snapshot) :
    firstOutcome (past ++ [s]) =
      (firstOutcome past).or (s.compile none none).toOption := by
  rw [firstOutcome, List.findSome?_append, firstOutcome]
  congr 1
  cases hcompile : s.compile none none <;> simp [hcompile, Except.toOption]

/-- A call that finds the outcome of the earlier attempts follows the attempts up to its own, and
leaves their outcome. -/
theorem follows_call {past : List Snapshot}
    (hpast : Option.Rel SameOutcome (firstOutcome past) p.outcome) (c : Call) :
    Entry.Follows ⟨p, c, (c.perform p).1⟩ (firstOutcome (past ++ [p.snapshot])) ∧
      Option.Rel SameOutcome (firstOutcome (past ++ [p.snapshot])) (c.perform p).2.outcome := by
  rw [firstOutcome_append]
  rcases houtcome : p.outcome with _ | found <;> rw [houtcome] at hpast
  case none =>
    generalize firstOutcome past = first at hpast ⊢
    cases hpast
    rw [Option.none_or]
    rcases hcompile : p.snapshot.compile none none with f | result
    · have hperform := perform_error (compile_run_error houtcome hcompile) c
      rw [hperform]
      refine ⟨⟨f, hcompile, rfl, houtcome, congrArg Prod.snd hperform⟩, ?_⟩
      rw [houtcome]
      exact .none
    · obtain ⟨hleft, hshows⟩ :=
        perform_ok (compile_run houtcome hcompile) ⟨rfl, rfl⟩ (.refl result) c
      rw [hleft]
      exact ⟨hshows, .some (.refl result)⟩
  case some =>
    generalize firstOutcome past = first at hpast ⊢
    cases hpast with
    | some hsame =>
        obtain ⟨hleft, hshows⟩ :=
          perform_ok (compile_run_of_outcome houtcome) ⟨rfl, rfl⟩ hsame c
        rw [Option.some_or, hleft, houtcome]
        exact ⟨hshows, .some hsame⟩

/-- Every call of a history follows the attempts up to its own. -/
theorem follows_of_history {past : List Snapshot} {steps : List Step}
    (hpast : Option.Rel SameOutcome (firstOutcome past) p.outcome) {earlier later : List Entry}
    {e : Entry} (h : history p steps = earlier ++ e :: later) :
    e.Follows (firstOutcome (past ++ (earlier ++ [e]).map (·.project.snapshot))) := by
  induction steps generalizing p past earlier with
  | nil => simp [history] at h
  | cons step rest ih =>
      cases step with
      | edit change =>
          have hkept := change.keeps p
          refine ih ?_ h
          generalize (change.change p).outcome = after at hkept
          generalize p.outcome = before at hkept hpast
          generalize firstOutcome past = first at hpast
          cases hpast with
          | none =>
              cases hkept
              exact .none
          | some hpast =>
              cases hkept with
              | some hkept => exact .some (hpast.trans hkept)
      | call c =>
          obtain ⟨hfollows, hleft⟩ := follows_call hpast c
          cases earlier with
          | nil =>
              obtain ⟨rfl, -⟩ := List.cons.inj h
              exact hfollows
          | cons first earlier =>
              obtain ⟨rfl, hrest⟩ := List.cons.inj h
              have hlater := ih hleft hrest
              rwa [List.append_assoc] at hlater

theorem outcome_of_load {name : String} {output preset : Option String}
    {file : Option SnapshotFile} (h : load name output preset file = .ok p) : p.outcome = none := by
  obtain ⟨s, -, hp⟩ := bind_eq_ok.1 h
  obtain rfl := Except.ok.inj hp
  rfl

end Calls

/-- Of a loaded project, a call fails with the snapshot that it finds for as long as no call has
compiled without a fault; from then on every call shows that one outcome. -/
theorem follows_firstOutcome {name : String} {output preset : Option String}
    {file : Option SnapshotFile} {p : Project} (hload : load name output preset file = .ok p)
    {steps : List Step} {earlier later : List Entry} {e : Entry}
    (h : history p steps = earlier ++ e :: later) :
    e.Follows (firstOutcome ((earlier ++ [e]).map (·.project.snapshot))) := by
  have hnew : Option.Rel SameOutcome (firstOutcome []) p.outcome := by
    rw [outcome_of_load hload]
    exact .none
  exact follows_of_history hnew h

/-- A film whose sound is lowered beyond all octaves. -/
def deepFile : SnapshotFile where
  size := 200
  content := .ok (shiftedFilm (-20000))

/-- Takes the filters off the sound of a clip. -/
def unvoiced : Edit := .ofClip "first" (fun c => { c with audioFilters := .empty }) fun _ => rfl

def cleared : Edit := .ofSnapshot fun s => { s with clips := [] }

def unplugged : Edit := .ofMedia "film" fun m => { m with offline := true }

/-- A compilation that fails, a run once the clip is mended, and a plan under other settings, with
the media gone and without any clip. -/
def mendedSteps : List Step :=
  [.call .compile, .edit unvoiced, .call (.run false), .edit (.ofPreset "small-share"),
    .edit unplugged, .edit cleared, .call .plan]

theorem follows_mendedSteps :
    ∃ p, load "film.yaml" none none (some deepFile) = .ok p ∧
      ∃ earlier e, history p mendedSteps = earlier ++ [e] ∧
        e.call = .plan ∧ e.project.snapshot.clips = [] ∧
        (firstOutcome ((earlier ++ [e]).map (·.project.snapshot))).map Option.isSome =
          some true ∧
        e.Follows (firstOutcome ((earlier ++ [e]).map (·.project.snapshot))) := by
  have hseen : (load "film.yaml" none none (some deepFile)).map (fun p =>
      (firstOutcome ((history p mendedSteps).map (·.project.snapshot))).map Option.isSome) =
        .ok (some true) := by
    decide +kernel
  obtain ⟨p, hp, hfirst⟩ := exists_of_map_eq_ok hseen
  obtain ⟨first, second, third, hhistory, hcall, hclips⟩ : ∃ first second third,
      history p mendedSteps = [first, second] ++ [third] ∧
        third.call = .plan ∧ third.project.snapshot.clips = [] := ⟨_, _, _, rfl, rfl, rfl⟩
  rw [hhistory] at hfirst
  exact ⟨p, hp, [first, second], third, hhistory, hcall, hclips, hfirst,
    follows_firstOutcome hp hhistory⟩

/-- A frame rate that no binary64 value is near. -/
def hugeRate : Edit :=
  .ofSnapshot fun s => { s with settings := { s.settings with fps := .number (.int (10 ^ 400)) } }

/-- The fault of a call that raised one. -/
def Answer.fault? : Answer → Option Fault
  | .result x => faultOf x
  | .plan x => faultOf x
  | .printout x => faultOf x
where
  faultOf {α : Type} : Except Fault α → Option Fault
    | .ok _ => none
    | .error f => some f

/-- The plan of an outcome may fail after an edit, though it was shown before and the outcome is
still there to be run. -/
theorem plan_fails_hugeRate :
    ∃ p, load "film.yaml" none none (some { deepFile with content := .ok (shiftedFilm 0) }) =
        .ok p ∧
      (history p [.call .plan, .edit hugeRate, .call .plan, .call (.run false)]).map
          (·.answer.fault?) = [none, some .integerTooLarge, none] := by
  have hseen : (load "film.yaml" none none (some
      { deepFile with content := .ok (shiftedFilm 0) })).map (fun p =>
        (history p [.call .plan, .edit hugeRate, .call .plan, .call (.run false)]).map
          (·.answer.fault?)) = .ok [none, some .integerTooLarge, none] := by
    decide +kernel
  exact exists_of_map_eq_ok hseen

end Project

end Montage
