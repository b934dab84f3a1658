import Montage.Proofs.Export.Graph
import Montage.Proofs.Export.GraphText
import Montage.Proofs.Text.Parts

/-!
Graphs are read back from their texts.

The texts of stages and of labels have none of the marks that stand between them, and a chain has a
stage at least.  So the text of a graph, taken apart at its marks, gives the labels and the stages
of every chain, and no mark in it has a meaning for a shell inside double quotes.
-/

namespace Montage

open Text

/-- What separates chains, stages and labels, what a shell reads as a mark, and white space. -/
def isGraphMark (c : Char) : Bool := ",;[]\"'\\$`".toList.contains c || isBlank c

/-- The texts of a chain: those of its labels and those of its stages. -/
structure ChainText where
  inputs : List String
  stages : List String
  outputs : List String
deriving DecidableEq

/-- The texts of a chain, from the labels in brackets at both ends and the parts between the commas
of what stands between them.  There are none when something follows the labels at the end. -/
def ChainText.ofText? (s : List Char) : Option ChainText :=
  let (inputs, rest) := labelsFrom none s
  let (outputs, after) := labelsFrom none (rest.dropWhile (· != '['))
  if after.isEmpty then
    some ⟨inputs.map String.ofList,
      (partsOf [','] (rest.takeWhile (· != '['))).map String.ofList, outputs.map String.ofList⟩
  else none

/-- The texts of the chains of a graph. -/
def readGraph? (graph : String) : Option (List ChainText) :=
  (partsOf "; ".toList graph.toList).mapM ChainText.ofText?

/-- The texts that a chain is written with. -/
def Chain.texts (c : Chain) : Except Fault ChainText := do
  return ⟨c.inputs, ← c.stages.mapM Stage.render, c.outputs⟩

section Marks

theorem toNat_of_isAlphanum {c : Char} (h : c.isAlphanum = true) :
    48 ≤ c.toNat ∧ c.toNat ≤ 122 := by
  rcases Bool.or_eq_true_iff.1 h with halpha | hdigit
  · rcases Bool.or_eq_true_iff.1 halpha with hupper | hlower
    · obtain ⟨hleast, hmost⟩ : 65 ≤ c.toNat ∧ c.toNat ≤ 90 := of_decide_eq_true hupper
      omega
    · obtain ⟨hleast, hmost⟩ := Bool.and_eq_true_iff.1 hlower
      have hleast' : 97 ≤ c.toNat := of_decide_eq_true hleast
      have hmost' : c.toNat ≤ 122 := of_decide_eq_true hmost
      omega
  · obtain ⟨hleast, hmost⟩ : 48 ≤ c.toNat ∧ c.toNat ≤ 57 := Char.isDigit_iff_toNat.1 hdigit
    omega

theorem isGraphMark_of_isStageChar {c : Char} (h : isStageChar c = true) :
    isGraphMark c = false := by
  have hmarks : MadeOf (fun d => !isStageChar d) ",;[]\"'\\$`".toList := by decide
  rw [isGraphMark, Bool.or_eq_false_iff, List.contains_eq_mem, decide_eq_false_iff_not]
  refine ⟨hmarks.not_mem (by rw [h, Bool.not_true]), ?_⟩
  rcases Bool.or_eq_true_iff.1 h with halnum | hsign
  · have hcode := toNat_of_isAlphanum halnum
    simp only [isBlank, Bool.or_eq_false_iff, Bool.and_eq_false_iff, decide_eq_false_iff_not,
      beq_eq_false_iff_ne]
    omega
  · have hsigns : MadeOf (fun d => !isBlank d) "_=:()/*|.+-".toList := by decide
    exact (Bool.not_eq_true' _).mp (hsigns c (List.contains_iff_mem.1 hsign))

end Marks

section Staged

variable (g : GraphContext) (inputs : List Media) (s : Segment) (label : String)

/-- A chain begins with a stage that has a name. -/
def Chain.Staged (c : Chain) : Prop := c.stages.head?.any (·.name != "") = true

theorem yields_videoChain_staged : Yields Chain.Staged (g.videoChain inputs s label) := by
  have hblack : Yields Chain.Staged (do return g.black (← s.duration) label) :=
    .bind .any fun _ _ => .ok (rfl)
  rw [GraphContext.videoChain]
  split
  · exact hblack
  · refine .ite ?_ hblack
    refine .bind .any fun _ _ => .bind .any fun _ _ => .bind .any fun _ _ => ?_
    refine .bind .any fun _ _ => .bind .any fun _ _ => .bind .any fun _ _ => ?_
    exact .ok (rfl)

theorem yields_audioChain_staged : Yields Chain.Staged (g.audioChain inputs s label) := by
  have hsilence : Yields Chain.Staged (do return g.silence (← s.duration) label) :=
    .bind .any fun _ _ => .ok (rfl)
  rw [GraphContext.audioChain]
  split
  · exact hsilence
  · refine .ite ?_ hsilence
    refine .bind .any fun _ _ => .bind .any fun _ _ => .bind .any fun _ _ => ?_
    refine .bind .any fun _ _ => .bind .any fun _ _ => .bind .any fun _ _ => ?_
    refine .ite ?_ ?_
    · exact .bind .any fun _ _ => .ok (rfl)
    · exact .ok (rfl)

end Staged

section Body

variable {labels texts : List String}

theorem Chain.Staged.body_ne_nil {c : Chain} (h : c.Staged)
    (htexts : c.stages.mapM Stage.render = .ok texts) :
    texts ≠ [] ∧ (",".intercalate texts).toList ≠ [] := by
  rw [Chain.Staged] at h
  cases hstages : c.stages with
  | nil =>
      rw [hstages] at h
      exact absurd h Bool.false_ne_true
  | cons st rest =>
      rw [hstages, List.head?_cons, Option.any_some, bne_iff_ne] at h
      rw [hstages, List.mapM_cons] at htexts
      obtain ⟨text, htext, htexts⟩ := bind_eq_ok.1 htexts
      obtain ⟨later, -, htexts⟩ := bind_eq_ok.1 htexts
      obtain ⟨arguments, -, htext⟩ := bind_eq_ok.1 htext
      obtain rfl := Except.ok.inj htexts
      obtain rfl := Except.ok.inj htext
      have hname : st.name.toList ≠ [] := fun hnil => h (String.toList_inj.1 hnil)
      refine ⟨List.cons_ne_nil _ _, ?_⟩
      cases later <;> simp [String.toList_intercalate, hname]

theorem not_mem_body (htexts : ∀ s ∈ texts, IsPlain s) : '[' ∉ (",".intercalate texts).toList := by
  have hbody : MadeOf (· != '[') (",".intercalate texts).toList :=
    madeOf_intercalate (by decide) fun s hs c hc =>
      bne_iff_ne.2 (ne_of_kind (htexts s hs c hc) (by decide))
  exact fun hmem => absurd (hbody '[' hmem) (by decide)

/-- What stands in front of labels ends where the first of them is opened. -/
theorem span_pads {body : List Char} (hbody : '[' ∉ body) (labels : List String) :
    (body ++ (Chain.pads labels).toList).takeWhile (· != '[') = body ∧
      (body ++ (Chain.pads labels).toList).dropWhile (· != '[') = (Chain.pads labels).toList := by
  have hall : ∀ c ∈ body, (c != '[') = true :=
    fun c hc => bne_iff_ne.2 fun heq => hbody (heq ▸ hc)
  have hpads : (Chain.pads labels).toList.takeWhile (· != '[') = [] ∧
      (Chain.pads labels).toList.dropWhile (· != '[') = (Chain.pads labels).toList := by
    rw [toList_pads]
    cases labels <;> exact ⟨rfl, rfl⟩
  rw [List.takeWhile_append_of_pos hall, List.dropWhile_append_of_pos hall, hpads.1, hpads.2,
    List.append_nil]
  exact ⟨rfl, rfl⟩

theorem labelsFrom_pads (hlabels : ∀ label ∈ labels, IsPlain label) {rest : List Char}
    (hrest : rest.head? ≠ some '[') :
    labelsFrom none ((Chain.pads labels).toList ++ rest) = (labels.map String.toList, rest) := by
  rw [toList_pads]
  refine labelsFrom_flatMap ?_ hrest
  intro chars hchars
  obtain ⟨label, hlabel, rfl⟩ := List.mem_map.1 hchars
  exact MadeOf.not_mem (hlabels label hlabel) (by decide)

theorem map_ofList_toList (texts : List String) :
    (texts.map String.toList).map String.ofList = texts := by
  rw [List.map_map]
  exact (List.map_congr_left fun s _ => String.ofList_toList).trans (List.map_id texts)

end Body

section Reading

variable {inputs stages outputs : List String} {c : Chain}

/-- The texts of a chain are read back from what is put together from them. -/
theorem ofText?_pads (hinputs : ∀ label ∈ inputs, IsPlain label)
    (hstages : ∀ s ∈ stages, IsPlain s) (houtputs : ∀ label ∈ outputs, IsPlain label)
    (hne : stages ≠ [] ∧ (",".intercalate stages).toList ≠ []) :
    ChainText.ofText? (Chain.pads inputs ++ ",".intercalate stages ++ Chain.pads outputs).toList =
      some ⟨inputs, stages, outputs⟩ := by
  have hopened := not_mem_body hstages
  obtain ⟨htake, hdrop⟩ := span_pads hopened outputs
  have hparts : partsOf [','] (",".intercalate stages).toList = stages.map String.toList := by
    rw [String.toList_intercalate]
    refine partsOf_intercalate (by simpa using hne.1) ?_
    intro chars hchars
    obtain ⟨s, hs, rfl⟩ := List.mem_map.1 hchars
    exact MadeOf.not_mem (hstages s hs) (by decide)
  have hbegins : ((",".intercalate stages).toList ++ (Chain.pads outputs).toList).head? ≠
      some '[' := by
    rw [List.head?_append_of_ne_nil _ hne.2]
    exact fun hhead => hopened (List.mem_of_head? hhead)
  have hlast : labelsFrom none ((Chain.pads outputs).toList ++ []) =
      (outputs.map String.toList, []) := labelsFrom_pads houtputs nofun
  rw [List.append_nil] at hlast
  rw [String.toList_append, String.toList_append, List.append_assoc, ChainText.ofText?,
    labelsFrom_pads hinputs hbegins]
  simp only [htake, hdrop, hlast, hparts, map_ofList_toList, List.isEmpty_nil, ↓reduceIte]

/-- The text of a chain has no semicolon, and its texts are read back from it. -/
theorem Chain.HoldsPlain.exists_ofText? (hplain : c.HoldsPlain) (hstaged : c.Staged)
    {text : String} (htext : c.render = .ok text) :
    ';' ∉ text.toList ∧ ∃ t, c.texts = .ok t ∧ ChainText.ofText? text.toList = some t := by
  refine ⟨(hplain.yields_render text htext).not_mem (by decide), ?_⟩
  obtain ⟨texts, htexts, htext⟩ := bind_eq_ok.1 htext
  obtain rfl := Except.ok.inj htext
  have hstages : ∀ s ∈ texts, IsPlain s :=
    Yields.mapM (fun st hst => (hplain.stages st hst).yields_render) texts htexts
  refine ⟨⟨c.inputs, texts, c.outputs⟩, ?_,
    ofText?_pads hplain.inputs hstages hplain.outputs (hstaged.body_ne_nil htexts)⟩
  rw [Chain.texts, htexts]
  rfl

/-- The texts of chains are read back one after the other. -/
theorem exists_mapM_ofText? {chains : List Chain}
    (hchains : ∀ c ∈ chains, c.HoldsPlain ∧ c.Staged) {texts : List String}
    (htexts : List.Forall₂ (fun c text => Chain.render c = .ok text) chains texts) :
    (∀ text ∈ texts, ';' ∉ text.toList) ∧
      ∃ written, chains.mapM Chain.texts = .ok written ∧
        (texts.map String.toList).mapM ChainText.ofText? = some written := by
  induction htexts with
  | nil => exact ⟨List.forall_mem_nil _, [], rfl, rfl⟩
  | cons htext _ ih =>
      obtain ⟨⟨hplain, hstaged⟩, hrest⟩ := List.forall_mem_cons.1 hchains
      obtain ⟨hmark, t, ht, hread⟩ := hplain.exists_ofText? hstaged htext
      obtain ⟨hmarks, written, hwritten, hreads⟩ := ih hrest
      refine ⟨List.forall_mem_cons.2 ⟨hmark, hmarks⟩, t :: written, ?_, ?_⟩
      · rw [List.mapM_cons, ht, hwritten]
        rfl
      · rw [List.map_cons, List.mapM_cons, hread, hreads]
        rfl

end Reading

/-- No text of a stage has a mark in it, and from the text of a graph the labels and the stages of
all its chains are read back. -/
theorem readGraph?_render {g : GraphContext} {segments : List Segment} {p : GraphPlan}
    {graph : String} (hplan : g.plan segments = .ok (some p)) (hgraph : p.render = .ok graph) :
    (∀ c ∈ p.chains, ∀ st ∈ c.stages,
        ∃ text, st.render = .ok text ∧ ∀ d ∈ text.toList, isGraphMark d = false) ∧
      ∃ texts, p.chains.mapM Chain.texts = .ok texts ∧ readGraph? graph = some texts := by
  obtain ⟨hne, hplain⟩ := g.yields_plan segments _ hplan p rfl
  have hstaged := (GraphContext.yields_chains (fun _ _ _ => yields_videoChain_staged g _ _ _)
    (fun _ _ _ => yields_audioChain_staged g _ _ _) (fun _ => rfl) segments _ hplan p rfl).2
  obtain ⟨texts, htexts, hgraph⟩ := bind_eq_ok.1 hgraph
  obtain rfl := Except.ok.inj hgraph
  have hwritten := forall₂_of_mapM htexts
  constructor
  · intro c hc st hst
    obtain ⟨text, htext⟩ := exists_of_mapM htexts c hc
    obtain ⟨rendered, hrendered, -⟩ := bind_eq_ok.1 htext
    obtain ⟨s, hs⟩ := exists_of_mapM hrendered st hst
    have hchars : IsPlain s := ((hplain c hc).stages st hst).yields_render s hs
    exact ⟨s, hs, fun d hd => isGraphMark_of_isStageChar (hchars d hd)⟩
  · obtain ⟨hmarks, written, hreads, hread⟩ :=
      exists_mapM_ofText? (fun c hc => ⟨hplain c hc, hstaged c hc⟩) hwritten
    refine ⟨written, hreads, ?_⟩
    have hparts : texts.map String.toList ≠ [] := by
      intro hnil
      rw [List.map_eq_nil_iff.1 hnil, List.forall₂_nil_right_iff] at hwritten
      exact hne hwritten
    rw [readGraph?, String.toList_intercalate]
    refine Eq.trans ?_ hread
    congr 1
    refine partsOf_intercalate hparts ?_
    intro chars hchars
    obtain ⟨text, htext, rfl⟩ := List.mem_map.1 hchars
    exact hmarks text htext

/-- A part of the film, backwards at twice the speed, in stronger colours and more to the left. -/
def turnedPart : Clip :=
  { filmPart with
    speed := some 2
    reversed := true
    videoFilters := FilterSet.empty.put .saturation (some (.amount 2))
    audioFilters := FilterSet.empty.put .pan
      (some (.amount (.float (Binary64.ofRatio true unitsInOne 2)))) }

def turnedFilmAndGap : List Segment :=
  [{ start := 0, stop := 1000, video := [turnedPart], audio := [turnedPart] },
    { start := 1000, stop := 2500 }]

def turnedTexts : List ChainText :=
  [⟨["0:v"], ["trim=start=0:end=2", "setpts=PTS-STARTPTS", "reverse", "setpts=PTS-STARTPTS",
      "setpts=(PTS-STARTPTS)/2", "eq=saturation=2",
      "scale=1280:720:force_original_aspect_ratio=decrease", "pad=1280:720:(ow-iw)/2:(oh-ih)/2",
      "setsar=1", "format=yuv420p"], ["v0"]⟩,
    ⟨["0:a"], ["atrim=start=0:end=2", "asetpts=PTS-STARTPTS", "areverse", "asetpts=PTS-STARTPTS",
      "atempo=2", "pan=stereo|c0=0.75*c0+0.75*c1|c1=0.25*c0+0.25*c1"], ["a0"]⟩,
    ⟨[], ["color=c=black:s=1280x720:r=30:d=1.5", "format=yuv420p", "setsar=1"], ["v1"]⟩,
    ⟨[], ["anullsrc=channel_layout=stereo:sample_rate=44100:d=1.5"], ["a1"]⟩,
    ⟨["v0", "a0", "v1", "a1"], ["concat=n=2:v=1:a=1"], ["outv", "outa"]⟩]

theorem readGraph?_turnedFilmAndGap :
    ∃ p graph, filmAndTape.plan turnedFilmAndGap = .ok (some p) ∧ p.render = .ok graph ∧
      (∀ c ∈ p.chains, ∀ st ∈ c.stages,
        ∃ text, st.render = .ok text ∧ ∀ d ∈ text.toList, isGraphMark d = false) ∧
      p.chains.mapM Chain.texts = .ok turnedTexts ∧ readGraph? graph = some turnedTexts := by
  have hseen : (filmAndTape.plan turnedFilmAndGap).map (·.map fun p =>
      (p.render.toOption.isSome, (p.chains.mapM Chain.texts).toOption)) =
        .ok (some (true, some turnedTexts)) := by
    decide +kernel
  obtain ⟨p, hplan, hseen⟩ := exists_of_map_eq hseen
  obtain ⟨hsome, htexts⟩ := Prod.mk.inj hseen
  obtain ⟨graph, hgraph⟩ := Option.isSome_iff_exists.1 hsome
  rw [toOption_eq_some] at hgraph htexts
  obtain ⟨hmarks, texts, hwritten, hread⟩ := readGraph?_render hplan hgraph
  obtain rfl : turnedTexts = texts := Except.ok.inj (htexts.symm.trans hwritten)
  exact ⟨p, graph, hplan, hgraph, hmarks, htexts, hread⟩

end Montage
