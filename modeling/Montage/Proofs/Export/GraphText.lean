import Montage.Export.Graph
import Montage.Proofs.Text.Characters

/-!
The characters of a graph.

No text of a stage has a character that separates stages or chains, that encloses labels, or that
a shell could take for its own.  The texts of a graph come from the program and from numbers
alone: no name of a media item, and no other text of a snapshot, has a way into it.
-/

namespace Montage

open Text

/-- Characters of the texts of stages and of labels. -/
def isStageChar (c : Char) : Bool := c.isAlphanum || "_=:()/*|.+-".toList.contains c

/-- Characters of the texts of chains. -/
def isChainChar (c : Char) : Bool := isStageChar c || "[],".toList.contains c

/-- Characters of the texts of graphs. -/
def isGraphChar (c : Char) : Bool := isStageChar c || "[],; ".toList.contains c

/-- A text made of the characters of stages. -/
def IsPlain (s : String) : Prop := MadeOf isStageChar s.toList

instance (s : String) : Decidable (IsPlain s) :=
  inferInstanceAs (Decidable (MadeOf isStageChar s.toList))

theorem IsPlain.append {s t : String} (hs : IsPlain s) (ht : IsPlain t) : IsPlain (s ++ t) := by
  rw [IsPlain, String.toList_append]
  exact MadeOf.append hs ht

theorem isStageChar_of_isNumeral {c : Char} (h : isNumeral c = true) :
    isStageChar c = true :=
  kind_of_isNumeral (by decide) h

theorem IsNumeral.isPlain {s : String} (h : IsNumeral s) : IsPlain s :=
  MadeOf.imp h fun _ => isStageChar_of_isNumeral

theorem isPlain_toString (n : Nat) : IsPlain (toString n) := by
  have hdigits : MadeOf isNumeral n.repr.toList := by
    rw [Nat.toList_repr]
    exact madeOf_toDigits n
  exact hdigits.imp fun _ => isStageChar_of_isNumeral

/-- A text with plain parts and a separator between them. -/
theorem madeOf_intercalate {kind : Char → Bool} {separator : String} {parts : List String}
    (hseparator : MadeOf kind separator.toList) (hparts : ∀ s ∈ parts, MadeOf kind s.toList) :
    MadeOf kind (separator.intercalate parts).toList := by
  rw [String.toList_intercalate]
  induction parts with
  | nil => exact madeOf_nil
  | cons s rest ih =>
      obtain ⟨hs, hrest⟩ := List.forall_mem_cons.1 hparts
      cases rest with
      | nil => simpa using hs
      | cons t more =>
          rw [List.map_cons, List.map_cons, List.intercalate_cons_cons]
          exact (hs.append hseparator).append (ih hrest)

namespace Stage

/-- The texts that a stage holds. -/
def texts : Stage → List String
  | trim start stop | audioTrim start stop => [start, stop]
  | setPts expression | audioSetPts expression => [expression]
  | speedPts speed => [speed]
  | hqdn3d luma chroma => [luma, chroma]
  | fade direction _ _ | audioFade direction _ _ _ => [direction]
  | pixelFormat format => [format]
  | color _ _ _ _ tint => [tint]
  | nullSource _ _ layout => [layout]
  | _ => []

/-- The texts that a stage holds are plain. -/
def HoldsPlain (st : Stage) : Prop := ∀ s ∈ st.texts, IsPlain s

/-- The texts that stages hold are plain. -/
def AllPlain (stages : List Stage) : Prop := ∀ st ∈ stages, st.HoldsPlain

section Written

variable (a b c d : Number)

theorem parameter_isPlain : Yields IsPlain a.parameter :=
  (yields_parameter a).imp fun _ => IsNumeral.isPlain

theorem trimmed_isPlain (places : Nat) : Yields IsPlain (a.trimmed places) :=
  (yields_trimmed a places).imp fun _ => IsNumeral.isPlain

theorem seconds_isPlain : Yields IsPlain a.seconds :=
  (yields_seconds a).imp fun _ => IsNumeral.isPlain

theorem setting_isPlain (value : Document) : Yields IsPlain value.parameter :=
  value.yields_parameter.imp fun _ => IsNumeral.isPlain

theorem sizeText_isPlain : Yields IsPlain (sizeText a) :=
  (Document.yields_written a).imp fun _ => IsNumeral.isPlain

theorem isPlain_text : IsPlain a.text := (isNumeral_text a).isPlain

theorem fadeStart_isPlain (direction : String) : Yields IsPlain (fadeStart direction a) :=
  .ite (parameter_isPlain a) (trimmed_isPlain a 3)

theorem eqParts_isPlain : Yields (fun parts => ∀ s ∈ parts, IsPlain s) (eqParts a b c d) := by
  have hpart : ∀ {key : String}, IsPlain key → ∀ neutral value : Number,
      Yields (fun parts => ∀ s ∈ parts, IsPlain s)
        (if value.eq neutral then pure [] else do
          return [key ++ "=" ++ (← value.parameter)] : Except Fault (List String)) := by
    intro key hkey neutral value
    refine .ite (.ok (List.forall_mem_nil _)) ?_
    refine .bind (parameter_isPlain value) fun text htext => .ok ?_
    exact List.forall_mem_singleton.2 ((hkey.append (by decide)).append htext)
  refine .bind (hpart (by decide) 0 a) fun brightness hbrightness => ?_
  refine .bind (hpart (by decide) 1 b) fun contrast hcontrast => ?_
  refine .bind (hpart (by decide) 1 c) fun saturation hsaturation => ?_
  refine .bind (hpart (by decide) 1 d) fun gamma hgamma => .ok ?_
  simp only [List.forall_mem_append]
  exact ⟨⟨⟨hbrightness, hcontrast⟩, hsaturation⟩, hgamma⟩

end Written

theorem isPlain_name (st : Stage) : IsPlain st.name := by
  cases st <;> simp only [name] <;> decide

/-- What follows the name of a stage is plain where the texts that it holds are. -/
theorem HoldsPlain.yields_arguments {st : Stage} (h : st.HoldsPlain) :
    Yields IsPlain st.arguments := by
  cases st with
  | blank | reverse | hflip | vflip | audioReverse | dynAudNorm | setSar =>
      exact .ok (by decide)
  | trim start stop | audioTrim start stop =>
      have hstart := h start (by simp [texts])
      have hstop := h stop (by simp [texts])
      exact .ok ((((by decide : IsPlain "=start=").append hstart).append (by decide)).append hstop)
  | setPts text | audioSetPts text | pixelFormat text =>
      have htext := h text (by simp [texts])
      exact .ok ((by decide : IsPlain "=").append htext)
  | speedPts speed =>
      have hspeed := h speed (by simp [texts])
      exact .ok ((by decide : IsPlain ("=(" ++ fromZero ++ ")/")).append hspeed)
  | eq brightness contrast saturation gamma =>
      refine .bind (eqParts_isPlain _ _ _ _) fun parts hparts => .ok ?_
      exact (by decide : IsPlain "=").append (madeOf_intercalate (by decide) hparts)
  | hue a | bass a | treble a =>
      refine .bind (parameter_isPlain a) fun text htext => .ok ?_
      exact .append (by decide) htext
  | transpose direction => exact .ok (.append (by decide) (isPlain_text direction))
  | boxBlur a | unsharp a =>
      refine .bind (parameter_isPlain a) fun text htext => .ok ?_
      exact .append (.append (by decide) htext) (by decide)
  | hqdn3d luma chroma =>
      have hluma := h luma (by simp [texts])
      have hchroma := h chroma (by simp [texts])
      have hcolon : IsPlain ":" := by decide
      exact .ok ((((((((by decide : IsPlain "=").append hluma).append hcolon).append
        hluma).append hcolon).append hchroma).append hcolon).append hchroma)
  | fade direction start duration =>
      have hdirection := h direction (by simp [texts])
      refine .bind (fadeStart_isPlain start direction) fun first hfirst => ?_
      refine .bind (parameter_isPlain duration) fun text htext => .ok ?_
      exact (((((by decide : IsPlain "=").append hdirection).append (by decide)).append
        hfirst).append (by decide)).append htext
  | scale width height | pad width height =>
      refine .bind (sizeText_isPlain width) fun first hfirst => ?_
      refine .bind (sizeText_isPlain height) fun second hsecond => .ok ?_
      exact ((((by decide : IsPlain "=").append hfirst).append (by decide)).append
        hsecond).append (by decide)
  | color width height fps duration tint =>
      have htint := h tint (by simp [texts])
      refine .bind (sizeText_isPlain width) fun first hfirst => ?_
      refine .bind (sizeText_isPlain height) fun second hsecond => ?_
      refine .bind (setting_isPlain fps) fun rate hrate => ?_
      refine .bind (seconds_isPlain duration) fun seconds hseconds => .ok ?_
      exact (((((((((by decide : IsPlain "=c=").append htint).append (by decide)).append
        hfirst).append (by decide)).append hsecond).append (by decide)).append hrate).append
        (by decide)).append hseconds
  | setRate a | tempo a =>
      refine .bind (trimmed_isPlain a _) fun text htext => .ok ?_
      exact .append (by decide) htext
  | stereoPan pan =>
      refine .bind .any fun first _ => .bind .any fun half _ => ?_
      refine .bind (trimmed_isPlain half 3) fun left hleft => ?_
      refine .bind .any fun second _ => .bind .any fun half _ => ?_
      refine .bind (trimmed_isPlain half 3) fun right hright => .ok ?_
      exact ((((((((by decide : IsPlain "=stereo|c0=").append hleft).append (by decide)).append
        hleft).append (by decide)).append hright).append (by decide)).append hright).append
        (by decide)
  | audioFade direction start duration fixed =>
      have hdirection := h direction (by simp [texts])
      refine .bind (fadeStart_isPlain start direction) fun first hfirst => ?_
      have hbegins : IsPlain ("=t=" ++ direction ++ ":st=" ++ first ++ ":d=") :=
        ((((by decide : IsPlain "=t=").append hdirection).append (by decide)).append
          hfirst).append (by decide)
      exact .ite (.bind (trimmed_isPlain duration 3) fun _ htext => .ok (hbegins.append htext))
        (.bind (parameter_isPlain duration) fun _ htext => .ok (hbegins.append htext))
  | volume level =>
      refine .bind (setting_isPlain level) fun text htext => .ok ?_
      exact .append (by decide) htext
  | nullSource rate duration layout =>
      have hlayout := h layout (by simp [texts])
      refine .bind (setting_isPlain rate) fun first hfirst => ?_
      refine .bind (seconds_isPlain duration) fun seconds hseconds => .ok ?_
      exact (((((by decide : IsPlain "=channel_layout=").append hlayout).append
        (by decide)).append hfirst).append (by decide)).append hseconds
  | concat count video audio =>
      exact .ok ((((((by decide : IsPlain "=n=").append (isPlain_text count)).append
        (by decide)).append (isPlain_text video)).append (by decide)).append (isPlain_text audio))

/-- The text of a stage is plain where the texts that it holds are. -/
theorem HoldsPlain.yields_render {st : Stage} (h : st.HoldsPlain) :
    Yields IsPlain st.render :=
  .bind h.yields_arguments fun _ hrest => .ok (st.isPlain_name.append hrest)

end Stage

section Stages

open Stage

variable {first second : List Stage}

theorem Stage.HoldsPlain.allPlain {st : Stage} (h : st.HoldsPlain) : AllPlain [st] :=
  List.forall_mem_singleton.2 h

theorem Stage.HoldsPlain.cons {st : Stage} (h : st.HoldsPlain) (hfirst : AllPlain first) :
    AllPlain (st :: first) :=
  List.forall_mem_cons.2 ⟨h, hfirst⟩

theorem Stage.AllPlain.append (hfirst : AllPlain first) (hsecond : AllPlain second) :
    AllPlain (first ++ second) :=
  List.forall_mem_append.2 ⟨hfirst, hsecond⟩

theorem Stage.AllPlain.ite {c : Prop} [Decidable c] (hfirst : AllPlain first)
    (hsecond : AllPlain second) : AllPlain (if c then first else second) := by
  split
  · exact hfirst
  · exact hsecond

theorem allPlain_nil : AllPlain [] := List.forall_mem_nil _

theorem holdsPlain_of_nil {st : Stage} (htexts : st.texts = []) : st.HoldsPlain := by
  rw [HoldsPlain, htexts]
  exact List.forall_mem_nil _

theorem holdsPlain_singleton {st : Stage} {s : String} (htexts : st.texts = [s])
    (hs : IsPlain s) : st.HoldsPlain := by
  rw [HoldsPlain, htexts]
  exact List.forall_mem_singleton.2 hs

theorem yields_stageIf {c : Bool} {stage : Except Fault Stage}
    (h : Yields HoldsPlain stage) : Yields AllPlain (stageIf c stage) :=
  .ite (.bind h fun _ hst => .ok hst.allPlain) (.ok allPlain_nil)

theorem yields_atSpeed (speed : Number) : Yields HoldsPlain (atSpeed speed) :=
  .bind (parameter_isPlain speed) fun _ htext => .ok (List.forall_mem_singleton.2 htext)

theorem yields_denoise (strength : Number) : Yields HoldsPlain (denoise strength) := by
  refine .bind .any fun half _ => .bind .any fun chroma _ => ?_
  refine .bind (trimmed_isPlain half 2) fun first hfirst => ?_
  refine .bind (trimmed_isPlain chroma 2) fun second hsecond => .ok ?_
  exact List.forall_mem_cons.2 ⟨hfirst, List.forall_mem_singleton.2 hsecond⟩

theorem turnStages_allPlain (degrees : Number) : AllPlain (turnStages degrees) := by
  have hturn : ∀ n, (Stage.transpose n).HoldsPlain := fun _ => List.forall_mem_nil _
  exact .ite (hturn 1).allPlain
    (.ite ((hturn 2).allPlain.append (hturn 2).allPlain) (.ite (hturn 2).allPlain allPlain_nil))

theorem holdsPlain_pair {st : Stage} {s t : String} (htexts : st.texts = [s, t])
    (hs : IsPlain s) (ht : IsPlain t) : st.HoldsPlain := by
  rw [HoldsPlain, htexts]
  exact List.forall_mem_cons.2 ⟨hs, List.forall_mem_singleton.2 ht⟩

/-- A fade holds the word for its direction. -/
theorem holdsPlain_fade {direction : String} (h : IsPlain direction) (start duration : Number) :
    (Stage.fade direction start duration).HoldsPlain :=
  holdsPlain_singleton rfl h

theorem holdsPlain_audioFade {direction : String} (h : IsPlain direction)
    (start duration : Number) (fixed : Bool) :
    (Stage.audioFade direction start duration fixed).HoldsPlain :=
  holdsPlain_singleton rfl h

theorem yields_videoEffects (video : FilterSet VideoKey) (milliseconds : Number) :
    Yields AllPlain (videoEffects video milliseconds) := by
  refine .bind .any fun parts _ => ?_
  refine .bind (yields_stageIf (.ok (holdsPlain_of_nil rfl))) fun hue hhue => ?_
  refine .bind (yields_stageIf (.ok (holdsPlain_of_nil rfl))) fun blur hblur => ?_
  refine .bind (yields_stageIf (.ok (holdsPlain_of_nil rfl))) fun sharpen hsharpen => ?_
  refine .bind (yields_stageIf (yields_denoise _)) fun denoise hdenoise => ?_
  refine .bind (yields_stageIf (.ok (holdsPlain_fade (by decide) _ _)))
    fun opening hopening => ?_
  refine .bind (yields_stageIf (.bind .any fun start _ =>
    .ok (holdsPlain_fade (by decide) start _))) fun closing hclosing => .ok ?_
  have htone : AllPlain (if parts.isEmpty then [] else [Stage.eq (video.amount .brightness)
      (video.amount .contrast) (video.amount .saturation) (video.amount .gamma)]) :=
    .ite allPlain_nil (holdsPlain_of_nil rfl).allPlain
  have hflips : AllPlain ((if video.isOn .flipH then [Stage.hflip] else [])
      ++ (if video.isOn .flipV then [Stage.vflip] else [])) :=
    .append (.ite (holdsPlain_of_nil rfl).allPlain allPlain_nil)
      (.ite (holdsPlain_of_nil rfl).allPlain allPlain_nil)
  exact (((((((htone.append hhue).append (turnStages_allPlain _)).append hflips).append
    hblur).append hsharpen).append hdenoise).append hopening).append hclosing

theorem yields_audioEffects (audio : FilterSet AudioKey) (milliseconds : Number) :
    Yields AllPlain (audioEffects audio milliseconds) := by
  refine .bind (yields_stageIf (.ok (holdsPlain_of_nil rfl))) fun bass hbass => ?_
  refine .bind (yields_stageIf (.ok (holdsPlain_of_nil rfl))) fun treble htreble => ?_
  refine .bind (yields_stageIf (.ok (holdsPlain_of_nil rfl))) fun normalize hnormalize => ?_
  refine .bind (yields_stageIf (.ok (holdsPlain_of_nil rfl))) fun pan hpan => ?_
  refine .bind (yields_stageIf (.ok (holdsPlain_audioFade (by decide) _ _ _)))
    fun opening hopening => ?_
  refine .bind (yields_stageIf (.bind .any fun start _ =>
    .ok (holdsPlain_audioFade (by decide) start _ _))) fun closing hclosing => .ok ?_
  exact ((((hbass.append htreble).append hnormalize).append hpan).append hopening).append
    hclosing

theorem yields_clickFades (milliseconds : Number) :
    Yields AllPlain (clickFades milliseconds) := by
  refine .bind .any fun seconds _ => .bind .any fun x _ => ?_
  refine .ite (.ok allPlain_nil) (.bind .any fun half _ => ?_)
  refine .ite (.ok allPlain_nil) (.bind .any fun start _ => .ok ?_)
  exact (holdsPlain_audioFade (by decide) _ _ _).allPlain.append
    (holdsPlain_audioFade (by decide) _ _ _).allPlain

theorem yields_tempoStages (speed pitch : Option Number) (sampleRate : Document) :
    Yields AllPlain (tempoStages speed pitch sampleRate) := by
  have hrate : ∀ rate, (Stage.setRate rate).HoldsPlain := fun _ => holdsPlain_of_nil rfl
  have htempo : ∀ factors, AllPlain (List.map Stage.tempo factors) := by
    intro factors st hst
    obtain ⟨factor, -, rfl⟩ := List.mem_map.1 hst
    exact holdsPlain_of_nil rfl
  refine .bind .any fun ratio _ => .bind .any fun tempo _ => ?_
  refine .bind (yields_stageIf (.bind .any fun _ _ => .bind .any fun rate _ =>
    .ok (hrate rate))) fun change hchange => ?_
  exact .bind (.bind .any fun factors _ => .ok (htempo factors)) fun _ hstages =>
    .ok (hchange.append hstages)

end Stages

/-- The labels of a chain are plain, and so are the texts that its stages hold. -/
structure Chain.HoldsPlain (c : Chain) : Prop where
  inputs : ∀ label ∈ c.inputs, IsPlain label
  stages : Stage.AllPlain c.stages
  outputs : ∀ label ∈ c.outputs, IsPlain label

section Chains

theorem Stage.AllPlain.chain {stages : List Stage} {pad label : String} (h : AllPlain stages)
    (hpad : IsPlain pad) (hlabel : IsPlain label) :
    (Chain.mk [pad] stages [label]).HoldsPlain :=
  ⟨List.forall_mem_singleton.2 hpad, h, List.forall_mem_singleton.2 hlabel⟩

theorem IsPlain.madeOf_chain {s : String} (h : IsPlain s) : MadeOf isChainChar s.toList :=
  MadeOf.imp h fun _ hc => Bool.or_eq_true_iff.2 (Or.inl hc)

theorem isGraphChar_of_isChainChar {c : Char} (h : isChainChar c = true) :
    isGraphChar c = true := by
  rcases Bool.or_eq_true_iff.1 h with hstage | hmark
  · exact Bool.or_eq_true_iff.2 (Or.inl hstage)
  · have hmarks : MadeOf isGraphChar "[],".toList := by decide
    exact hmarks c (List.contains_iff_mem.1 hmark)

theorem toList_pads (labels : List String) :
    (Chain.pads labels).toList =
      (labels.map String.toList).flatMap fun label => '[' :: label ++ [']'] := by
  rw [Chain.pads, String.toList_join, List.flatMap_map, List.flatMap_map]
  refine List.flatMap_congr fun label _ => ?_
  rw [String.toList_append, String.toList_append]
  rfl

theorem madeOf_pads {labels : List String} (h : ∀ label ∈ labels, IsPlain label) :
    MadeOf isChainChar (Chain.pads labels).toList := by
  intro c hc
  rw [toList_pads, List.flatMap_map, List.mem_flatMap] at hc
  obtain ⟨label, hlabel, hc⟩ := hc
  have hpad : MadeOf isChainChar ('[' :: label.toList ++ [']']) :=
    .append (.cons (by decide) (h label hlabel).madeOf_chain) (by decide)
  exact hpad c hc

theorem Chain.HoldsPlain.yields_render {c : Chain} (h : c.HoldsPlain) :
    Yields (fun s => MadeOf isChainChar s.toList) c.render := by
  refine .bind (.mapM fun st hst => (h.stages st hst).yields_render) fun texts htexts => .ok ?_
  simp only [String.toList_append]
  refine .append (.append (madeOf_pads h.inputs) ?_) (madeOf_pads h.outputs)
  exact madeOf_intercalate (by decide) fun s hs => (htexts s hs).madeOf_chain

theorem yields_renderGraph {chains : List Chain} (h : ∀ c ∈ chains, c.HoldsPlain) :
    Yields (fun s => MadeOf isGraphChar s.toList) (Chain.renderGraph chains) := by
  refine .bind (.mapM fun c hc => (h c hc).yields_render) fun texts htexts => .ok ?_
  exact madeOf_intercalate (by decide) fun s hs =>
    (htexts s hs).imp fun _ => isGraphChar_of_isChainChar

end Chains

namespace GraphContext

open Stage

variable (g : GraphContext) (inputs : List Media) (s : Segment) (c : Clip) (m : Media)
  {label : String}

theorem isPlain_sourcePad {stream : String} (h : IsPlain stream) :
    IsPlain (sourcePad inputs m stream) :=
  ((isPlain_toString _).append (by decide)).append h

theorem black_holdsPlain (duration : Number) (h : IsPlain label) :
    (g.black duration label).HoldsPlain where
  inputs := List.forall_mem_nil _
  stages := (holdsPlain_singleton rfl (by decide)).cons
    ((holdsPlain_singleton rfl (by decide)).cons (holdsPlain_of_nil rfl).allPlain)
  outputs := List.forall_mem_singleton.2 h

theorem silence_holdsPlain (duration : Number) (h : IsPlain label) :
    (g.silence duration label).HoldsPlain where
  inputs := List.forall_mem_nil _
  stages := (holdsPlain_singleton rfl (by decide)).allPlain
  outputs := List.forall_mem_singleton.2 h

theorem yields_picture (h : IsPlain label) :
    Yields Chain.HoldsPlain (g.picture inputs s c m label) := by
  refine .bind .any fun duration _ => .bind .any fun window _ => ?_
  refine .bind (Stage.seconds_isPlain window.start) fun first hfirst => ?_
  refine .bind (Stage.seconds_isPlain window.stop) fun last hlast => ?_
  refine .bind (yields_stageIf (yields_atSpeed _)) fun speed hspeed => ?_
  refine .bind (yields_videoEffects _ _) fun effects heffects => .ok ?_
  have hzero : (Stage.setPts Stage.fromZero).HoldsPlain := holdsPlain_singleton rfl (by decide)
  have hcut : AllPlain [Stage.trim first last, .setPts Stage.fromZero] :=
    (holdsPlain_pair rfl hfirst hlast).cons hzero.allPlain
  have hturned : AllPlain (if c.reversed then [Stage.reverse, .setPts Stage.fromZero] else []) :=
    .ite ((holdsPlain_of_nil rfl).cons hzero.allPlain) allPlain_nil
  have hfitted : AllPlain [Stage.scale (.int g.width) (.int g.height),
      .pad (.int g.width) (.int g.height), .setSar, .pixelFormat "yuv420p"] :=
    (holdsPlain_of_nil rfl).cons ((holdsPlain_of_nil rfl).cons
      ((holdsPlain_of_nil rfl).cons (holdsPlain_singleton rfl (by decide)).allPlain))
  have hall := (((hcut.append hturned).append hspeed).append heffects).append hfitted
  exact hall.chain (isPlain_sourcePad inputs m (by decide)) h

theorem yields_sound (h : IsPlain label) :
    Yields Chain.HoldsPlain (g.sound inputs s c m label) := by
  refine .bind .any fun duration _ => .bind .any fun window _ => ?_
  refine .bind (Stage.seconds_isPlain window.start) fun first hfirst => ?_
  refine .bind (Stage.seconds_isPlain window.stop) fun last hlast => ?_
  refine .bind (yields_tempoStages _ _ _) fun tempo htempo => ?_
  refine .bind (yields_audioEffects _ _) fun effects heffects => ?_
  have hzero : (Stage.audioSetPts Stage.fromZero).HoldsPlain :=
    holdsPlain_singleton rfl (by decide)
  have hcut : AllPlain [Stage.audioTrim first last, .audioSetPts Stage.fromZero] :=
    (holdsPlain_pair rfl hfirst hlast).cons hzero.allPlain
  have hturned : AllPlain
      (if c.reversed then [Stage.audioReverse, .audioSetPts Stage.fromZero] else []) :=
    .ite ((holdsPlain_of_nil rfl).cons hzero.allPlain) allPlain_nil
  have hlevel : ∀ volume : Document,
      AllPlain (if volume.agrees (.number 1) then [] else [Stage.volume volume]) :=
    fun _ => .ite allPlain_nil (holdsPlain_of_nil rfl).allPlain
  have hall : ∀ {volume : Document} {clicks : List Stage}, AllPlain clicks →
      AllPlain ([Stage.audioTrim first last, .audioSetPts Stage.fromZero]
        ++ (if c.reversed then [Stage.audioReverse, .audioSetPts Stage.fromZero] else [])
        ++ tempo ++ effects
        ++ (if volume.agrees (.number 1) then [] else [Stage.volume volume]) ++ clicks) :=
    fun hclicks => ((((hcut.append hturned).append htempo).append heffects).append
      (hlevel _)).append hclicks
  have hpad : IsPlain (sourcePad inputs m "a") := isPlain_sourcePad inputs m (by decide)
  exact .ite (.bind (yields_clickFades duration) fun _ hclicks => .ok ((hall hclicks).chain hpad h))
    (.ok ((hall allPlain_nil).chain hpad h))

theorem yields_videoChain (h : IsPlain label) :
    Yields Chain.HoldsPlain (g.videoChain inputs s label) := by
  have hblack : Yields Chain.HoldsPlain (do return g.black (← s.duration) label) :=
    .bind .any fun duration _ => .ok (g.black_holdsPlain duration h)
  rw [videoChain]
  split
  · exact hblack
  · exact .ite (g.yields_picture inputs s _ _ h) hblack

theorem yields_audioChain (h : IsPlain label) :
    Yields Chain.HoldsPlain (g.audioChain inputs s label) := by
  have hsilence : Yields Chain.HoldsPlain (do return g.silence (← s.duration) label) :=
    .bind .any fun duration _ => .ok (g.silence_holdsPlain duration h)
  rw [audioChain]
  split
  · exact hsilence
  · exact .ite (g.yields_sound inputs s _ _ h) hsilence

theorem isPlain_label (i : Nat) : IsPlain s!"v{i}" ∧ IsPlain s!"a{i}" :=
  ⟨.append (by decide) (isPlain_toString i), .append (by decide) (isPlain_toString i)⟩

section Plans

variable {g inputs} {P : Chain → Prop}

theorem yields_segmentChains (hvideo : ∀ s (i : Nat), Yields P (g.videoChain inputs s s!"v{i}"))
    (haudio : ∀ s (i : Nat), Yields P (g.audioChain inputs s s!"a{i}")) (segments : List Segment)
    (i : Nat) :
    Yields (fun kept => ∀ k ∈ kept, P k.2.2.1 ∧ P k.2.2.2) (g.segmentChains inputs i segments) := by
  induction segments generalizing i with
  | nil => exact .ok (List.forall_mem_nil _)
  | cons s rest ih =>
      refine .bind .any fun kept _ => ?_
      refine .ite ?_ (ih (i + 1))
      refine .bind (hvideo s i) fun video hvideo => ?_
      refine .bind (haudio s i) fun audio haudio => ?_
      refine .bind (ih (i + 1)) fun later hlater => .ok ?_
      exact List.forall_mem_cons.2 ⟨⟨hvideo, haudio⟩, hlater⟩

/-- What holds of the chains of every segment and of the last chain holds of all chains. -/
theorem yields_chains (hvideo : ∀ inputs s (i : Nat), Yields P (g.videoChain inputs s s!"v{i}"))
    (haudio : ∀ inputs s (i : Nat), Yields P (g.audioChain inputs s s!"a{i}"))
    (hlast : ∀ places, P (lastChain places)) (segments : List Segment) :
    Yields (fun plan => ∀ p ∈ plan, p.chains ≠ [] ∧ ∀ c ∈ p.chains, P c) (g.plan segments) := by
  refine .bind .any fun inputs _ => .ite (.ok nofun) ?_
  refine .bind (yields_segmentChains (hvideo inputs) (haudio inputs) segments 0)
    fun kept hkept => ?_
  refine .ite (.ok nofun) (.ok ?_)
  intro p hp
  obtain rfl := Option.some.inj hp
  refine ⟨List.append_ne_nil_of_right_ne_nil _ (List.cons_ne_nil _ _), ?_⟩
  refine List.forall_mem_append.2 ⟨?_, List.forall_mem_singleton.2 (hlast _)⟩
  intro c hc
  obtain ⟨k, hk, hc⟩ := List.mem_flatMap.1 hc
  obtain ⟨hvideo, haudio⟩ := hkept k hk
  exact List.forall_mem_cons.2 ⟨hvideo, List.forall_mem_singleton.2 haudio⟩ c hc

end Plans

theorem lastChain_holdsPlain (places : List Nat) : (lastChain places).HoldsPlain where
  inputs := by
    intro label hlabel
    obtain ⟨i, -, hlabel⟩ := List.mem_flatMap.1 hlabel
    obtain ⟨hvideo, haudio⟩ := isPlain_label i
    exact List.forall_mem_cons.2 ⟨hvideo, List.forall_mem_singleton.2 haudio⟩ label hlabel
  stages := (holdsPlain_of_nil rfl).allPlain
  outputs := (by decide : ∀ label ∈ [videoOutput, audioOutput], IsPlain label)

/-- Every chain of a graph holds plain texts. -/
theorem yields_plan (segments : List Segment) :
    Yields (fun plan => ∀ p ∈ plan, p.chains ≠ [] ∧ ∀ c ∈ p.chains, c.HoldsPlain)
      (g.plan segments) :=
  yields_chains (fun inputs s i => g.yields_videoChain inputs s (isPlain_label i).1)
    (fun inputs s i => g.yields_audioChain inputs s (isPlain_label i).2) lastChain_holdsPlain
    segments

/-- The text of a graph is made of the characters of graphs, whatever the snapshot holds. -/
theorem madeOf_render {segments : List Segment} {p : GraphPlan} {graph : String}
    (hplan : g.plan segments = .ok (some p)) (hgraph : p.render = .ok graph) :
    MadeOf isGraphChar graph.toList :=
  yields_renderGraph (g.yields_plan segments _ hplan p rfl).2 graph hgraph

end GraphContext

end Montage
