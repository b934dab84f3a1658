import Montage.Export.Command
import Montage.Proofs.Number.Power

/-!
Stages whose text can be written.

Binary64 values can always be written, and whole numbers as long as they are within its range.
What is made of bounded filters, speeds and times can be written too, so long as the pitch is not
beyond all octaves.
-/

namespace Montage

namespace Number

variable {a : Number} {k : Nat}

theorem exists_parameter (ha : a.Fits) : ∃ text, a.parameter = .ok text := by
  obtain ⟨x, hx⟩ := ha
  exact exists_bind hx ⟨_, rfl⟩

theorem gives_half (ha : a.Bounded k) (hk : k < greatestExponent) :
    Gives Fits (a.div 2) := by
  obtain ⟨x, hx⟩ := exists_half ha hk
  exact ⟨_, hx, fits_float x⟩

/-- A time in seconds is a binary64 value. -/
theorem exists_div_thousand (ha : a.Fits) :
    ∃ x, a.div (.float (Binary64.ofInt 1000)) = .ok (.float x) :=
  exists_div_float ha (by decide +kernel)

end Number

namespace Stage

/-- The text of a stage can be written. -/
def Renders (st : Stage) : Prop := ∃ text, st.arguments = .ok text

/-- The texts of all stages can be written. -/
def AllRender (stages : List Stage) : Prop := ∀ st ∈ stages, st.Renders

theorem allRender_nil : AllRender [] := List.forall_mem_nil _

theorem Renders.allRender {st : Stage} (h : st.Renders) : AllRender [st] :=
  List.forall_mem_singleton.2 h

theorem Renders.cons {st : Stage} {stages : List Stage} (h : st.Renders)
    (hs : AllRender stages) : AllRender (st :: stages) :=
  List.forall_mem_cons.2 ⟨h, hs⟩

theorem AllRender.append {first second : List Stage} (h : AllRender first)
    (hs : AllRender second) : AllRender (first ++ second) :=
  List.forall_mem_append.2 ⟨h, hs⟩

theorem allRender_ite {c : Prop} [Decidable c] {stages : List Stage}
    (h : AllRender stages) : AllRender (if c then stages else []) := by
  split
  · exact h
  · exact allRender_nil

theorem allRender_unless {c : Prop} [Decidable c] {stages : List Stage}
    (h : AllRender stages) : AllRender (if c then [] else stages) := by
  split
  · exact allRender_nil
  · exact h

section Texts

variable {a b c d : Number} {k : Nat}

theorem exists_eqParts (ha : a.Fits) (hb : b.Fits) (hc : c.Fits) (hd : d.Fits) :
    ∃ parts, eqParts a b c d = .ok parts := by
  have hpart : ∀ (key : String) (neutral : Number) {value : Number}, value.Fits →
      ∃ part, (if value.eq neutral then pure [] else do
        return [key ++ "=" ++ (← value.parameter)] : Except Fault (List String)) =
          .ok part := by
    intro key neutral value hvalue
    split
    · exact ⟨_, rfl⟩
    · obtain ⟨text, htext⟩ := Number.exists_parameter hvalue
      exact exists_bind htext ⟨_, rfl⟩
  obtain ⟨_, hbrightness⟩ := hpart "brightness" 0 ha
  obtain ⟨_, hcontrast⟩ := hpart "contrast" 1 hb
  obtain ⟨_, hsaturation⟩ := hpart "saturation" 1 hc
  obtain ⟨_, hgamma⟩ := hpart "gamma" 1 hd
  exact exists_bind hbrightness (exists_bind hcontrast
    (exists_bind hsaturation (exists_bind hgamma ⟨_, rfl⟩)))

theorem renders_eq (ha : a.Fits) (hb : b.Fits) (hc : c.Fits) (hd : d.Fits) :
    (Stage.eq a b c d).Renders := by
  obtain ⟨parts, hparts⟩ := exists_eqParts ha hb hc hd
  exact exists_bind hparts ⟨_, rfl⟩

/-- The stages with one written number. -/
theorem renders_of_parameter (ha : a.Fits) :
    (Stage.hue a).Renders ∧ (Stage.boxBlur a).Renders ∧ (Stage.unsharp a).Renders ∧
      (Stage.bass a).Renders ∧ (Stage.treble a).Renders := by
  obtain ⟨text, htext⟩ := Number.exists_parameter ha
  refine ⟨?_, ?_, ?_, ?_, ?_⟩
  all_goals exact exists_bind htext ⟨_, rfl⟩

theorem exists_fadeStart (direction : String) (ha : a.Fits) :
    ∃ text, fadeStart direction a = .ok text := by
  rw [fadeStart]
  split
  · exact Number.exists_parameter ha
  · exact Number.exists_trimmed ha 3

theorem renders_fade (direction : String) (ha : a.Fits) (hb : b.Fits) :
    (Stage.fade direction a b).Renders := by
  obtain ⟨start, hstart⟩ := exists_fadeStart direction ha
  obtain ⟨duration, hduration⟩ := Number.exists_parameter hb
  exact exists_bind hstart (exists_bind hduration ⟨_, rfl⟩)

theorem renders_audioFade (direction : String) (ha : a.Fits) (hb : b.Fits)
    (fixed : Bool) : (Stage.audioFade direction a b fixed).Renders := by
  obtain ⟨start, hstart⟩ := exists_fadeStart direction ha
  obtain ⟨written, hwritten⟩ := Number.exists_parameter hb
  obtain ⟨trimmed, htrimmed⟩ := Number.exists_trimmed hb 3
  refine exists_bind hstart ?_
  cases fixed
  · exact exists_bind hwritten ⟨_, rfl⟩
  · exact exists_bind htrimmed ⟨_, rfl⟩

theorem renders_stereoPan (ha : a.Bounded k) (hk : k + 1 < Number.greatestExponent) :
    (Stage.stereoPan a).Renders := by
  have hk' : k < Number.greatestExponent := by omega
  obtain ⟨left, hleft, hl⟩ := Number.gives_sub Number.bounded_one ha hk'
  obtain ⟨right, hright, hr⟩ := Number.gives_add Number.bounded_one ha hk'
  obtain ⟨x, hx⟩ := Number.exists_half hl hk
  obtain ⟨y, hy⟩ := Number.exists_half hr hk
  obtain ⟨first, hfirst⟩ := Number.exists_trimmed (Number.fits_float x) 3
  obtain ⟨second, hsecond⟩ := Number.exists_trimmed (Number.fits_float y) 3
  exact exists_bind hleft (exists_bind hx (exists_bind hfirst
    (exists_bind hright (exists_bind hy (exists_bind hsecond ⟨_, rfl⟩)))))

/-- Whole numbers within the range of binary64 have few enough digits to be written. -/
theorem exists_sizeText (ha : a.Bounded k) (hk : k < Number.greatestExponent) :
    ∃ text, sizeText a = .ok text := by
  have hshort : (Document.number a).isTooLong = false := by
    cases a with
    | float x => rfl
    | int n =>
        have hlimit : Number.greatestPower < Nat.pow 10 Fault.digitLimit := by decide +kernel
        exact decide_eq_false ((ha.natAbs_lt hk).trans hlimit).not_ge
  exact ⟨_, if_neg (Bool.eq_false_iff.1 hshort)⟩

theorem renders_fitted (ha : a.Bounded k) (hb : b.Bounded k)
    (hk : k < Number.greatestExponent) :
    (Stage.scale a b).Renders ∧ (Stage.pad a b).Renders := by
  obtain ⟨width, hwidth⟩ := exists_sizeText ha hk
  obtain ⟨height, hheight⟩ := exists_sizeText hb hk
  exact ⟨exists_bind hwidth (exists_bind hheight ⟨_, rfl⟩),
    exists_bind hwidth (exists_bind hheight ⟨_, rfl⟩)⟩

theorem gives_atSpeed (ha : a.Fits) : Gives Renders (atSpeed a) :=
  .bind (.of_exists (Number.exists_parameter ha)) fun _ _ => .ok ⟨_, rfl⟩

theorem gives_denoise (ha : a.Bounded k) (hk : k < Number.greatestExponent) :
    Gives Renders (denoise a) := by
  refine .bind (Number.gives_half ha hk) ?_
  intro luma hluma
  refine .bind (Number.gives_mul_float hluma _) ?_
  intro chroma hchroma
  refine .bind (.of_exists (Number.exists_trimmed hluma 2)) ?_
  intro first _
  refine .bind (.of_exists (Number.exists_trimmed hchroma 2)) ?_
  intro second _
  exact .ok ⟨_, rfl⟩

end Texts

end Stage

/-- The text of a chain can be written. -/
def Chain.Renders (c : Chain) : Prop := ∃ text, c.render = .ok text

theorem Stage.AllRender.chain {stages : List Stage} (h : AllRender stages)
    (inputs outputs : List String) : (Chain.mk inputs stages outputs).Renders := by
  have hrender : ∀ st ∈ stages, ∃ text, st.render = .ok text := by
    intro st hst
    obtain ⟨text, htext⟩ := h st hst
    exact exists_bind htext ⟨_, rfl⟩
  obtain ⟨texts, htexts⟩ := exists_mapM hrender
  exact exists_bind htexts ⟨_, rfl⟩

open Stage

theorem gives_stageIf {c : Bool} {stage : Except Fault Stage}
    (h : Gives Renders stage) : Gives AllRender (stageIf c stage) := by
  cases c with
  | false => exact .ok allRender_nil
  | true => exact .bind h fun st hst => .ok hst.allRender

/-- All amounts of a set are bounded. -/
def FilterSet.Bounded {K : Type} (k : Nat) (s : FilterSet K) : Prop :=
  ∀ key, (s.amount key).Bounded k

instance (k : Nat) (s : FilterSet VideoKey) : Decidable (s.Bounded k) :=
  decidable_of_iff (∀ key ∈ FilterKey.keys, (s.amount key).Bounded k)
    ⟨fun h key => h key (mem_videoKeys key), fun h key _ => h key⟩

instance (k : Nat) (s : FilterSet AudioKey) : Decidable (s.Bounded k) :=
  decidable_of_iff (∀ key ∈ FilterKey.keys, (s.amount key).Bounded k)
    ⟨fun h key => h key (mem_audioKeys key), fun h key _ => h key⟩

section Effects

variable {k : Nat} {milliseconds fade : Number}

theorem gives_closingStart (hm : milliseconds.Fits) (hf : fade.Fits) :
    Gives Number.Fits (closingStart milliseconds fade) := by
  obtain ⟨x, hx⟩ := Number.exists_div_thousand hm
  refine .bind (P := (· = Number.float x)) ⟨_, hx, rfl⟩ ?_
  rintro _ rfl
  refine .bind (Number.gives_float_sub x hf) ?_
  intro start hstart
  exact .ok ((Number.fits_float _).max hstart)

theorem turnStages_allRender (degrees : Number) : AllRender (turnStages degrees) := by
  have hturn : ∀ n, (Stage.transpose n).Renders := fun _ => ⟨_, rfl⟩
  rw [turnStages]
  split
  · exact (hturn 1).allRender
  · split
    · exact (hturn 2).allRender.append (hturn 2).allRender
    · exact allRender_ite (hturn 2).allRender

theorem gives_videoEffects {video : FilterSet VideoKey} (hvideo : video.Bounded k)
    (hk : k < Number.greatestExponent) (hm : milliseconds.Fits) :
    Gives AllRender (videoEffects video milliseconds) := by
  have hfits : ∀ key, (video.amount key).Fits := fun key => (hvideo key).fits hk
  have hzero : (0 : Number).Fits := (Number.bounded_zero (k := k)).fits hk
  obtain ⟨hhue, -⟩ := renders_of_parameter (hfits .hue)
  obtain ⟨-, hblur, -⟩ := renders_of_parameter (hfits .blur)
  obtain ⟨-, -, hsharpen, -⟩ := renders_of_parameter (hfits .sharpen)
  have hflips : ∀ on, AllRender (if on = true then [Stage.hflip] else []) ∧
      AllRender (if on = true then [Stage.vflip] else []) := fun on =>
    ⟨allRender_ite (Renders.allRender ⟨_, rfl⟩), allRender_ite (Renders.allRender ⟨_, rfl⟩)⟩
  refine .bind (.of_exists (exists_eqParts (hfits .brightness) (hfits .contrast)
    (hfits .saturation) (hfits .gamma))) ?_
  intro parts _
  refine .bind (gives_stageIf (.ok hhue)) ?_
  intro hue hhue
  refine .bind (gives_stageIf (.ok hblur)) ?_
  intro blur hblur
  refine .bind (gives_stageIf (.ok hsharpen)) ?_
  intro sharpen hsharpen
  refine .bind (gives_stageIf (gives_denoise (hvideo .denoise) hk)) ?_
  intro denoise hdenoise
  refine .bind (gives_stageIf (.ok (renders_fade "in" hzero (hfits .fadeIn)))) ?_
  intro opening hopening
  refine .bind (gives_stageIf (.bind (gives_closingStart hm (hfits .fadeOut))
    fun start hstart => .ok (renders_fade "out" hstart (hfits .fadeOut)))) ?_
  intro closing hclosing
  have htone : AllRender (if parts.isEmpty = true then [] else
      [Stage.eq (video.amount .brightness) (video.amount .contrast)
        (video.amount .saturation) (video.amount .gamma)]) :=
    allRender_unless (renders_eq (hfits .brightness) (hfits .contrast) (hfits .saturation)
      (hfits .gamma)).allRender
  exact .ok (((((((htone.append hhue).append (turnStages_allRender _)).append
    ((hflips _).1.append (hflips _).2)).append hblur).append hsharpen).append
    hdenoise).append hopening |>.append hclosing)

theorem gives_audioEffects {audio : FilterSet AudioKey} (haudio : audio.Bounded k)
    (hk : k + 1 < Number.greatestExponent) (hm : milliseconds.Fits) :
    Gives AllRender (audioEffects audio milliseconds) := by
  have hfits : ∀ key, (audio.amount key).Fits :=
    fun key => (haudio key).fits (by omega)
  have hzero : (0 : Number).Fits := (Number.bounded_zero (k := k)).fits (by omega)
  obtain ⟨-, -, -, hbass, -⟩ := renders_of_parameter (hfits .bass)
  obtain ⟨-, -, -, -, htreble⟩ := renders_of_parameter (hfits .treble)
  refine .bind (gives_stageIf (.ok hbass)) ?_
  intro bass hbass
  refine .bind (gives_stageIf (.ok htreble)) ?_
  intro treble htreble
  refine .bind (gives_stageIf (.ok ⟨_, rfl⟩)) ?_
  intro normalize hnormalize
  refine .bind (gives_stageIf (.ok (renders_stereoPan (haudio .pan) hk))) ?_
  intro pan hpan
  refine .bind (gives_stageIf (.ok (renders_audioFade "in" hzero (hfits .fadeIn) false))) ?_
  intro opening hopening
  refine .bind (gives_stageIf (.bind (gives_closingStart hm (hfits .fadeOut))
    fun start hstart => .ok (renders_audioFade "out" hstart (hfits .fadeOut) false))) ?_
  intro closing hclosing
  exact .ok (((((hbass.append htreble).append hnormalize).append hpan).append
    hopening).append hclosing)

theorem gives_clickFades (hm : milliseconds.Fits) :
    Gives AllRender (clickFades milliseconds) := by
  obtain ⟨x, hx⟩ := Number.exists_div_thousand hm
  refine .bind (P := (· = Number.float x)) ⟨_, hx, rfl⟩ ?_
  rintro _ rfl
  refine .bind (P := (· = x)) ⟨_, rfl, rfl⟩ ?_
  rintro seconds rfl
  split
  · exact .ok allRender_nil
  · have hsecond : (Number.float seconds).Bounded 0 := trivial
    refine .bind (Number.gives_half hsecond (by decide)) ?_
    intro half hhalf
    have hfade : (clickFade.min half).Fits := (Number.fits_float _).min hhalf
    dsimp only
    split
    · exact .ok allRender_nil
    · refine .bind (Number.gives_float_sub seconds hfade) ?_
      intro start hstart
      have hlast : (floatZero.max start).Fits := (Number.fits_float _).max hstart
      have hzero : (0 : Number).Fits := (Number.bounded_zero (k := 0)).fits (by decide)
      exact .ok ((renders_audioFade "in" hzero hfade true).allRender.append
        (renders_audioFade "out" hlast hfade true).allRender)

end Effects

section Tempo

/-- Dividing a binary64 value by a step leaves one. -/
theorem gives_divideOut (outside : Number → Bool) {step : Binary64}
    (hstep : step.isZero = false) (fuel : Nat) (x : Binary64) :
    Gives (fun r => ∃ y, r.2 = .float y)
      (divideOut outside (.float step) fuel (.float x)) := by
  induction fuel generalizing x with
  | zero => exact .ok ⟨x, rfl⟩
  | succ fuel ih =>
      rw [divideOut]
      split
      · obtain ⟨y, hy⟩ := Number.exists_div_float (Number.fits_float x) hstep
        refine .bind (P := (· = Number.float y)) ⟨_, hy, rfl⟩ ?_
        rintro _ rfl
        exact .bind (ih y) fun r hr => .ok hr
      · exact .ok ⟨x, rfl⟩

/-- The factors of a binary64 value are binary64 values. -/
theorem gives_tempoFactors (x : Binary64) :
    Gives (fun factors => ∀ f ∈ factors, f.Fits) (tempoFactors (.float x)) := by
  have hleast : (Binary64.ofRatio false unitsInOne 2).isZero = false := by decide +kernel
  have hmost : (Binary64.ofInt 2).isZero = false := by decide +kernel
  refine .bind (P := (· = x)) ⟨_, rfl, rfl⟩ ?_
  rintro tempo rfl
  split
  · exact .ok (List.forall_mem_nil _)
  · refine .bind (gives_divideOut _ hleast _ _) ?_
    rintro ⟨halves, _⟩ ⟨y, rfl⟩
    refine .bind (gives_divideOut _ hmost _ _) ?_
    rintro ⟨doubles, _⟩ ⟨z, rfl⟩
    have hone : (1 : Number).Fits := (Number.bounded_one (k := 0)).fits (by decide)
    have hresidue : Gives (fun _ => True) ((Number.float z).distance 1) :=
      .bind (Number.gives_float_sub z hone) fun _ _ => .ok trivial
    refine .bind hresidue ?_
    · intro residue _
      have hwhole : ∀ f ∈ List.replicate halves tempoLeast ++
          List.replicate doubles tempoMost, f.Fits := by
        intro f hf
        rcases List.mem_append.1 hf with hf | hf
        · exact List.eq_of_mem_replicate hf ▸ Number.fits_float _
        · exact List.eq_of_mem_replicate hf ▸ Number.fits_float _
      split
      · exact .ok (List.forall_mem_append.2 ⟨hwhole,
          List.forall_mem_singleton.2 (Number.fits_float z)⟩)
      · exact .ok hwhole

theorem renders_tempo {factor : Number} (h : factor.Fits) :
    (Stage.tempo factor).Renders := by
  obtain ⟨text, htext⟩ := Number.exists_trimmed h 3
  exact exists_bind htext ⟨_, rfl⟩

theorem renders_setRate {rate : Number} (h : rate.Fits) :
    (Stage.setRate rate).Renders := by
  obtain ⟨text, htext⟩ := Number.exists_trimmed h 2
  exact exists_bind htext ⟨_, rfl⟩

theorem gives_tempoChain (x : Binary64) :
    Gives AllRender (tempoChain (some (.float x))) := by
  refine .bind (gives_tempoFactors x) ?_
  intro factors hfactors
  refine .ok ?_
  intro st hst
  obtain ⟨f, hf, rfl⟩ := List.mem_map.1 hst
  exact renders_tempo (hfactors f hf)

/-- The pitch, in semitones, up to which its ratio is neither zero nor infinite. -/
def pitchLimit : Nat := 12 * exponentLimit

theorem gives_pitchRatio {pitch : Number} (h : pitch.AtMost pitchLimit) :
    Gives (fun ratio => ∃ x, ratio = .float x ∧ x.isZero = false) (pitchRatio pitch) := by
  have hcount : IsCount (pitchLimit * unitsInOne) := by decide +kernel
  have htwelve : IsCount ((12 : Int).natAbs * unitsInOne) := by decide +kernel
  have hdivisor : Binary64.ofInt 12 = .finite (decide ((12 : Int) < 0)) _ htwelve := by
    rw [Binary64.ofInt, Binary64.ofRatio_of_isCount]
  have hpos : (Binary64.ofInt 12).isZero = false := by decide +kernel
  obtain ⟨x, hx, hsize⟩ := h.exists_toBinary64 hcount
  have hexponent : (Number.float (x.div (Binary64.ofInt 12))).AtMost exponentLimit := by
    have hden : 0 < (12 : Int).natAbs * unitsInOne := Nat.mul_pos (by decide) unitsInOne_pos
    obtain ⟨n, hn, hle⟩ := hsize
    rcases x with _ | ⟨_ | _⟩ | ⟨s, m, hm⟩ <;>
      simp only [Number.place?, Option.some.injEq, reduceCtorEq, Place.point.injEq] at hn
    rw [← hn, natAbs_signedCount] at hle
    rw [hdivisor, Binary64.div, if_neg hden.ne']
    refine Binary64.atMost_ofRatio (by decide +kernel) _ hden ?_
    calc m * unitsInOne ≤ pitchLimit * unitsInOne * unitsInOne :=
          Nat.mul_le_mul_right _ hle
      _ = exponentLimit * unitsInOne * ((12 : Int).natAbs * unitsInOne) := by
          rw [pitchLimit, show (12 : Int).natAbs = 12 from rfl]
          ring
  refine .bind (P := (· = Number.float (x.div (Binary64.ofInt 12))))
    ⟨_, Number.div_float hx hpos, rfl⟩ ?_
  rintro _ rfl
  refine .bind (P := (· = x.div (Binary64.ofInt 12))) ⟨_, rfl, rfl⟩ ?_
  rintro _ rfl
  refine .bind (exists_powTwo hexponent) ?_
  intro ratio hratio
  exact .ok ⟨ratio, rfl, hratio⟩

theorem gives_tempoStages {speed pitch rate : Number} (hspeed : speed.Fits)
    (hpitch : pitch.AtMost pitchLimit) (hrate : rate.Fits) :
    Gives AllRender (tempoStages (some speed) (some pitch) (.number rate)) := by
  have hzero : (0 : Number).AtMost pitchLimit :=
    ⟨0, Number.place?_zero, Nat.zero_le _⟩
  have hone : (1 : Number).Fits := (Number.bounded_one (k := 0)).fits (by decide)
  have hset : (((some pitch).filter (!·.isZero)).getD 0).AtMost pitchLimit := by
    rw [Option.filter_some]
    split
    · exact hpitch
    · exact hzero
  have hplayed : (((some speed).filter (!·.isZero)).getD 1).Fits := by
    rw [Option.filter_some]
    split
    · exact hspeed
    · exact hone
  refine .bind (gives_pitchRatio hset) ?_
  rintro _ ⟨ratio, rfl, hratio⟩
  obtain ⟨tempo, htempo⟩ := Number.exists_div_float hplayed hratio
  refine .bind (P := (· = Number.float tempo)) ⟨_, htempo, rfl⟩ ?_
  rintro _ rfl
  refine .bind (gives_stageIf (.bind (P := (· = rate)) ⟨rate, rfl, rfl⟩ ?_)) ?_
  · rintro _ rfl
    exact .bind (Number.gives_mul_float hrate ratio) fun set hset =>
      .ok (renders_setRate hset)
  · intro set hset
    exact .bind (gives_tempoChain tempo) fun chain hchain => .ok (hset.append hchain)

end Tempo

end Montage
