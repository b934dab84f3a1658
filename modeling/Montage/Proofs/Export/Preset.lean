import Montage.Proofs.Snapshot.Reading
import Montage.Proofs.Text.Characters

/-!
The preset that settings are found to be.

Settings are compared with a preset by value: a number may be of either kind or a text that names
it, and what counts as absent is the empty text.  The command is written from the settings by rules
of its own.  Settings that a preset accepts give the same flags and the same frame as the preset
does, however their values are put.
-/

namespace Montage

/-- The number has a positive place. -/
def Number.isPositive (x : Number) : Bool :=
  match x.place? with
  | some (.point n) => decide (0 < n)
  | _ => false

namespace Number

variable {x y : Number} {k : Nat}

theorem exists_place_of_isPositive (h : x.isPositive = true) :
    ∃ k : Nat, 0 < k ∧ x.place? = some (.point k) := by
  unfold isPositive at h
  split at h
  · next n hn =>
      lift n to Nat using (of_decide_eq_true h).le
      exact ⟨n, Nat.cast_pos.1 (of_decide_eq_true h), hn⟩
  · exact absurd h Bool.false_ne_true

theorem isZero_of_place? (hk : 0 < k) (hx : x.place? = some (.point k)) : x.isZero = false := by
  rw [isZero, Bool.eq_false_iff, ne_eq, eq_iff hx place?_zero, Place.point.injEq]
  omega

/-- A number at a positive place is cut to the whole units below it, whatever its kind. -/
theorem truncate_of_place? (hk : 0 < k) (hx : x.place? = some (.point k)) :
    x.truncate = .ok ((k / unitsInOne : Nat) : Int) := by
  cases x with
  | int n =>
      rw [place?_int, Option.some.injEq, Place.point.injEq] at hx
      rw [truncate, Int.natCast_div, ← hx, Int.mul_ediv_cancel _ units_pos.ne']
  | float v =>
      obtain ⟨_, rfl⟩ := Binary64.eq_of_place? hk hx
      rfl

/-- Of a part of a frame that is equal to a positive number only the value matters. -/
theorem wholeOr_eq (hy : y.isPositive = true) (h : x.eq y = true) (fallback : Int) :
    wholeOr fallback (some x) = wholeOr fallback (some y) := by
  obtain ⟨k, hk, hplace⟩ := exists_place_of_isPositive hy
  have hx : x.place? = some (.point k) := by
    obtain ⟨p, hp, hp'⟩ := exists_places_of_eq h
    rw [hp, ← hp', hplace]
  rw [wholeOr, wholeOr, isZero_of_place? hk hx, isZero_of_place? hk hplace,
    truncate_of_place? hk hx, truncate_of_place? hk hplace]

end Number

namespace Document

/-- The value is null, a truth value, a number or a text. -/
def IsScalar : Document → Prop
  | null | bool _ | number _ | text _ => True
  | _ => False

/-- What counts as absent is no number but zero. -/
theorem isZero_of_isVoid {d : Document} {v : Binary64} (hd : d.isVoid = true)
    (hv : d.toBinary64 = .ok v) : (Number.float v).isZero = true := by
  have hzero : (Number.int 0).toBinary64 = .ok Binary64.zero := by decide +kernel
  cases d with
  | bool b =>
      cases b with
      | true => exact nomatch hd
      | false =>
          obtain rfl := Except.ok.inj hv
          decide +kernel
  | number x =>
      cases x with
      | int n =>
          obtain rfl : n = 0 := Number.int_eq_int.1 hd
          obtain rfl : Binary64.zero = v := Except.ok.inj (hzero.symm.trans hv)
          decide +kernel
      | float x =>
          obtain rfl : x = v := Except.ok.inj hv
          exact hd
  | text s =>
      obtain rfl : s = "" := String.isEmpty_iff.1 hd
      exact nomatch hv
  | _ => exact nomatch hv

variable {d e : Document}

theorem orElse_of_isVoid (h : d.isVoid = false) (e : Document) : d.orElse e = d := by
  rw [orElse, h, if_neg Bool.false_ne_true]

theorem isVoid_orElse_empty (d : Document) : (d.orElse (.text "")).isVoid = d.isVoid := by
  rw [orElse]
  split
  · next h =>
      rw [h]
      rfl
  · rfl

/-- The values are the same text, where one that counts as absent is the empty text. -/
def Alike (d e : Document) : Prop := d.orElse (.text "") = e.orElse (.text "")

theorem Alike.isVoid_eq (h : d.Alike e) : d.isVoid = e.isVoid := by
  rw [← isVoid_orElse_empty d, ← isVoid_orElse_empty e, h]

theorem Alike.flagFor_eq (h : d.Alike e) (flag : String) : flagFor flag d = flagFor flag e := by
  have hvoid := h.isVoid_eq
  rw [flagFor, flagFor, hvoid]
  split
  · rfl
  · next he =>
      rw [Bool.not_eq_true] at he
      rw [← orElse_of_isVoid (hvoid.trans he) (.text ""), h, orElse_of_isVoid he]

theorem Alike.usesRateFactor_eq (h : d.Alike e) : usesRateFactor d = usesRateFactor e := by
  rw [usesRateFactor, usesRateFactor, h]

/-- The values are written as the same parameter, and neither counts as absent. -/
structure SameRate (d e : Document) : Prop where
  left : d.isVoid = false
  right : e.isVoid = false
  parameter : d.parameter = e.parameter

theorem SameRate.orElse (h : d.SameRate e) (absent : Document) :
    (d.orElse absent).parameter = (e.orElse absent).parameter := by
  rw [orElse_of_isVoid h.left, orElse_of_isVoid h.right, h.parameter]

end Document

namespace ExportSettings

/-- What flags are made from has the same values in both settings. -/
structure Alike (s t : ExportSettings) : Prop where
  fps : s.fps.SameRate t.fps
  crf : s.crf.SameRate t.crf
  sampleRate : s.sampleRate.SameRate t.sampleRate
  videoCodec : s.videoCodec.Alike t.videoCodec
  videoBitrate : s.videoBitrate.Alike t.videoBitrate
  preset : s.preset.Alike t.preset
  audioCodec : s.audioCodec.Alike t.audioCodec
  audioBitrate : s.audioBitrate.Alike t.audioBitrate

variable {s t : ExportSettings}

theorem rateFactor_of_isVoid (h : s.crf.isVoid = false) : s.rateFactor = s.crf := by
  rw [rateFactor]
  split
  · next hnull =>
      rw [hnull] at h
      exact absurd h (by decide)
  · rfl

theorem Alike.videoFlags_eq (h : s.Alike t) : s.videoFlags = t.videoFlags := by
  have hfactor : s.rateFactor.parameter = t.rateFactor.parameter := by
    rw [rateFactor_of_isVoid h.crf.left, rateFactor_of_isVoid h.crf.right, h.crf.parameter]
  have hrate : s.frameRate.parameter = t.frameRate.parameter := h.fps.orElse _
  simp only [videoFlags, h.videoCodec.flagFor_eq, h.videoCodec.usesRateFactor_eq,
    h.videoBitrate.flagFor_eq, h.videoBitrate.isVoid_eq, h.preset.flagFor_eq, hfactor, hrate]

theorem Alike.audioFlags_eq (h : s.Alike t) : s.audioFlags = t.audioFlags := by
  have hrate : s.soundRate.parameter = t.soundRate.parameter := h.sampleRate.orElse _
  rw [audioFlags, audioFlags, h.audioCodec.flagFor_eq, h.audioBitrate.flagFor_eq, hrate]

end ExportSettings

/-- The text is empty, or is shown for no number and no truth value. -/
def Text.isWord (t : String) : Bool :=
  t != "True" && (t.isEmpty || t.toList.any fun c => !isNumeral c)

namespace Preset

open Document

variable {d e : Document} {x : Number} {t : String}

/-- A value that is shown as a word is that word, unless it counts as absent. -/
theorem eq_text_of_display (hd : d.IsScalar) (hvoid : d.isVoid = false)
    (hword : Text.isWord d.display = true) : d = .text d.display := by
  obtain ⟨hnotTrue, hword⟩ := Bool.and_eq_true_iff.1 hword
  cases d with
  | text s => rfl
  | null => exact absurd hvoid (by decide)
  | bool b =>
      cases b with
      | false => exact absurd hvoid (by decide)
      | true => exact absurd hnotTrue (by decide)
  | number x =>
      -- the text of a number is not empty, and has no character that a word needs
      rcases Bool.or_eq_true_iff.1 hword with hempty | hother
      · rw [String.isEmpty_iff] at hempty
        exact absurd (congrArg String.toList hempty) x.text_ne_nil
      · obtain ⟨c, hc, hnot⟩ := List.any_eq_true.1 hother
        rw [isNumeral_text x c hc] at hnot
        exact absurd hnot (by decide)
  | _ => exact hd.elim

/-- What is the text of a preset is that text, unless it counts as absent. -/
theorem orElse_of_sameText (hd : d.IsScalar) (ht : Text.isWord t = true)
    (h : sameText d t = .ok true) : d.orElse (.text "") = .text t := by
  obtain ⟨shown, hshown, h⟩ := bind_eq_ok.1 h
  obtain rfl : shown = t := beq_iff_eq.1 (Except.ok.inj h)
  obtain rfl := display_of_written hshown
  cases hvoid : d.isVoid with
  | true =>
      rw [orElse, if_pos hvoid]
      rfl
  | false =>
      rw [orElse_of_isVoid hvoid] at ht ⊢
      exact eq_text_of_display hd hvoid ht

theorem alike_of_sameText (ht : Text.isWord t = true) (hd : d.IsScalar) (he : e.IsScalar)
    (h : sameText d t = .ok true) (h' : sameText e t = .ok true) : d.Alike e :=
  (orElse_of_sameText hd ht h).trans (orElse_of_sameText he ht h').symm

/-- What is a positive number of a preset is one value of binary64, and does not count as absent. -/
theorem toBinary64_of_sameNumber {k : Nat} (hk : 0 < k) (hx : x.place? = some (.point k))
    (h : sameNumber d x = .ok true) :
    d.isVoid = false ∧ ∃ hcount, d.toBinary64 = .ok (.finite false k hcount) := by
  unfold sameNumber at h
  split at h
  · next v hv =>
      obtain ⟨p, hp, hp'⟩ := Number.exists_places_of_eq (Except.ok.inj h)
      rw [← hp', hx] at hp
      obtain ⟨hcount, rfl⟩ := Binary64.eq_of_place? hk hp
      refine ⟨Bool.eq_false_iff.2 fun hvoid => ?_, hcount, hv⟩
      have hzero := isZero_of_isVoid hvoid hv
      rw [Number.isZero_of_place? hk hp] at hzero
      exact Bool.false_ne_true hzero
  · simp only [reduceCtorEq] at h
  · simp only [Except.ok.injEq, Bool.false_eq_true] at h

/-- Two values that are one positive number of a preset are written alike. -/
theorem sameRate_of_sameNumber (hx : x.isPositive = true) (hd : sameNumber d x = .ok true)
    (he : sameNumber e x = .ok true) : d.SameRate e := by
  obtain ⟨k, hk, hplace⟩ := Number.exists_place_of_isPositive hx
  obtain ⟨hleft, _, hdvalue⟩ := toBinary64_of_sameNumber hk hplace hd
  obtain ⟨hright, _, hevalue⟩ := toBinary64_of_sameNumber hk hplace he
  refine ⟨hleft, hright, ?_⟩
  rw [parameter, parameter, hdvalue, hevalue]

theorem allSame_eq_ok {α : Type} {same : Document → α → Except Fault Bool}
    {l : List (Document × α)} (h : allSame same l = .ok true) :
    ∀ e ∈ l, same e.1 e.2 = .ok true := by
  induction l with
  | nil => exact List.forall_mem_nil _
  | cons e rest ih =>
      obtain ⟨found, hfound, h⟩ := bind_eq_ok.1 h
      cases found with
      | false => exact nomatch h
      | true => exact List.forall_mem_cons.2 ⟨hfound, ih h⟩

end Preset

/-- The settings that are texts in a preset. -/
def ExportSettings.presetTexts (s : ExportSettings) : List Document :=
  [s.videoCodec, s.videoBitrate, s.preset, s.audioCodec, s.audioBitrate]

namespace Preset

/-- The settings are those of a preset, one by one. -/
structure Accepted (p : Preset) (s : ExportSettings) : Prop where
  frame : s.resolution.agrees p.resolution = true
  fps : sameNumber s.fps p.fps = .ok true
  crf : sameNumber s.crf p.crf = .ok true
  sampleRate : sameNumber s.sampleRate p.sampleRate = .ok true
  videoCodec : sameText s.videoCodec p.videoCodec = .ok true
  videoBitrate : sameText s.videoBitrate p.videoBitrate = .ok true
  preset : sameText s.preset p.preset = .ok true
  audioCodec : sameText s.audioCodec p.audioCodec = .ok true
  audioBitrate : sameText s.audioBitrate p.audioBitrate = .ok true

variable {p : Preset} {s t : ExportSettings}

theorem accepts_eq_ok (h : p.accepts s = .ok true) : p.Accepted s := by
  rw [accepts] at h
  split at h
  · exact nomatch h
  · next hframe =>
      obtain ⟨sameNumbers, hnumbers, h⟩ := bind_eq_ok.1 h
      cases sameNumbers with
      | false => exact nomatch h
      | true =>
          have hnumber := allSame_eq_ok hnumbers
          have htext := allSame_eq_ok h
          simp only [numbers, texts, List.forall_mem_cons, List.not_mem_nil, false_implies,
            implies_true, and_true] at hnumber htext
          obtain ⟨hfps, hcrf, hsampleRate⟩ := hnumber
          obtain ⟨hvideoCodec, hvideoBitrate, hpreset, haudioCodec, haudioBitrate⟩ := htext
          refine ⟨?_, hfps, hcrf, hsampleRate, hvideoCodec, hvideoBitrate, hpreset, haudioCodec,
            haudioBitrate⟩
          simpa using hframe

theorem firstMatch_eq_ok {l : List Preset} (h : firstMatch s l = .ok (some p)) :
    p ∈ l ∧ p.accepts s = .ok true := by
  induction l with
  | nil => exact nomatch h
  | cons q rest ih =>
      obtain ⟨accepted, haccepted, h⟩ := bind_eq_ok.1 h
      cases accepted with
      | true =>
          obtain rfl := Option.some.inj (Except.ok.inj h)
          exact ⟨List.mem_cons_self, haccepted⟩
      | false =>
          obtain ⟨hp, haccepts⟩ := ih h
          exact ⟨List.mem_cons_of_mem q hp, haccepts⟩

/-- The match depends on what the presets accept only. -/
theorem firstMatch_congr (h : ∀ p : Preset, p.accepts s = p.accepts t) (l : List Preset) :
    firstMatch s l = firstMatch t l := by
  induction l with
  | nil => rfl
  | cons p rest ih => rw [firstMatch, firstMatch, h, ih]

/-- A preset fixes all that is compared with presets. -/
theorem accepts_apply (p q : Preset) (s : ExportSettings) :
    q.accepts (p.apply s) = q.accepts (p.apply {}) := rfl

end Preset

/-- The frame is of two positive numbers, or a word. -/
def Frame.isFixed : Frame → Bool
  | size (some width) (some height) => width.isPositive && height.isPositive
  | named (.text _) => true
  | _ => false

/-- Of a frame that agrees with one that a preset may fix, only the value matters. -/
theorem outputFrame_of_agrees {s : ExportSettings} {f : Frame} (hf : f.isFixed = true)
    (h : s.resolution.agrees f = true) (clips : List Clip) (media : List Media) :
    outputFrame s clips media = outputFrame { s with resolution := f } clips media := by
  unfold Frame.isFixed at hf
  split at hf
  · next width height =>
      obtain ⟨hwidth, hheight⟩ := Bool.and_eq_true_iff.1 hf
      cases hs : s.resolution with
      | named d =>
          rw [hs] at h
          exact absurd h Bool.false_ne_true
      | size w v =>
          rw [hs] at h
          obtain ⟨hw, hv⟩ := Bool.and_eq_true_iff.1 h
          cases w with
          | none => exact absurd hw Bool.false_ne_true
          | some w =>
              cases v with
              | none => exact absurd hv Bool.false_ne_true
              | some v =>
                  simp only [outputFrame, hs, Number.wholeOr_eq hwidth hw,
                    Number.wholeOr_eq hheight hv]
  · next word =>
      cases hs : s.resolution with
      | size w v =>
          rw [hs] at h
          exact absurd h Bool.false_ne_true
      | named d =>
          rw [hs] at h
          obtain rfl := Document.agrees_text_iff.1 h
          simp only [outputFrame, hs]
  · exact absurd hf Bool.false_ne_true

/-- The same flags and the same frames are made from both settings. -/
structure ExportSettings.RendersAs (s t : ExportSettings) : Prop where
  videoFlags : s.videoFlags = t.videoFlags
  audioFlags : s.audioFlags = t.audioFlags
  outputFrame : ∀ clips media, outputFrame s clips media = outputFrame t clips media

namespace Preset

open Document

/-- What presets fix: numbers that are positive, words, and frames of positive sizes. -/
theorem all_fixed : ∀ p ∈ all, p.resolution.isFixed = true ∧
    (∀ x ∈ [p.fps, p.crf, p.sampleRate], x.isPositive = true) ∧
    ∀ t ∈ [p.videoCodec, p.videoBitrate, p.preset, p.audioCodec, p.audioBitrate],
      Text.isWord t = true := by
  decide +kernel

theorem find?_id : ∀ p ∈ all, find? p.id = some p := by
  simp only [all, List.forall_mem_cons]
  exact ⟨rfl, rfl, rfl, rfl, List.forall_mem_nil _⟩

theorem accepts_self : ∀ p ∈ all, p.accepts (p.apply {}) = .ok true := by
  decide +kernel

theorem matchPreset_self : ∀ p ∈ all, matchPreset (p.apply {}) = .ok p.id := by
  decide +kernel

section Accepted

variable {p : Preset} {s t : ExportSettings} (hp : p ∈ all) (hs : p.Accepted s)
  (ht : p.Accepted t) (hsTexts : ∀ d ∈ s.presetTexts, d.IsScalar)
  (htTexts : ∀ d ∈ t.presetTexts, d.IsScalar)
include hp hs ht hsTexts htTexts

/-- Settings that one preset accepts have the values of the preset, both of them. -/
theorem alike_of_accepted : s.Alike t := by
  obtain ⟨-, hnumbers, hwords⟩ := all_fixed p hp
  simp only [ExportSettings.presetTexts, List.forall_mem_cons, List.not_mem_nil, false_implies,
    implies_true, and_true] at hnumbers hwords hsTexts htTexts
  obtain ⟨hfps, hcrf, hsampleRate⟩ := hnumbers
  obtain ⟨hvideoCodec, hvideoBitrate, hpreset, haudioCodec, haudioBitrate⟩ := hwords
  obtain ⟨hsVideoCodec, hsVideoBitrate, hsPreset, hsAudioCodec, hsAudioBitrate⟩ := hsTexts
  obtain ⟨htVideoCodec, htVideoBitrate, htPreset, htAudioCodec, htAudioBitrate⟩ := htTexts
  constructor
  case fps => exact sameRate_of_sameNumber hfps hs.fps ht.fps
  case crf => exact sameRate_of_sameNumber hcrf hs.crf ht.crf
  case sampleRate => exact sameRate_of_sameNumber hsampleRate hs.sampleRate ht.sampleRate
  case videoCodec =>
    exact alike_of_sameText hvideoCodec hsVideoCodec htVideoCodec hs.videoCodec ht.videoCodec
  case videoBitrate =>
    exact alike_of_sameText hvideoBitrate hsVideoBitrate htVideoBitrate hs.videoBitrate
      ht.videoBitrate
  case preset => exact alike_of_sameText hpreset hsPreset htPreset hs.preset ht.preset
  case audioCodec =>
    exact alike_of_sameText haudioCodec hsAudioCodec htAudioCodec hs.audioCodec ht.audioCodec
  case audioBitrate =>
    exact alike_of_sameText haudioBitrate hsAudioBitrate htAudioBitrate hs.audioBitrate
      ht.audioBitrate

theorem rendersAs_of_accepted : s.RendersAs t := by
  obtain ⟨hframe, -, -⟩ := all_fixed p hp
  have halike := alike_of_accepted hp hs ht hsTexts htTexts
  refine ⟨halike.videoFlags_eq, halike.audioFlags_eq, ?_⟩
  intro clips media
  rw [outputFrame_of_agrees hframe hs.frame, outputFrame_of_agrees hframe ht.frame]
  rfl

end Accepted

theorem matchPreset_eq_ok {s : ExportSettings} {id : String} (h : matchPreset s = .ok id)
    (hid : id ≠ "") : ∃ p ∈ all, p.id = id ∧ p.Accepted s := by
  obtain ⟨found, hfound, h⟩ := bind_eq_ok.1 h
  cases found with
  | none => exact absurd (Except.ok.inj h).symm hid
  | some p =>
      obtain ⟨hp, haccepts⟩ := firstMatch_eq_ok hfound
      exact ⟨p, hp, Except.ok.inj h, accepts_eq_ok haccepts⟩

theorem matchPreset_apply {p : Preset} (hp : p ∈ all) (s : ExportSettings) :
    matchPreset (p.apply s) = .ok p.id := by
  rw [← matchPreset_self p hp, matchPreset, matchPreset,
    firstMatch_congr fun q => accepts_apply p q s]

end Preset

/-- Settings that are found to be a preset are written as the preset is, and a preset that is put
in place is found. -/
theorem rendersAs_of_matchPreset (s : ExportSettings) :
    (∀ id, (∀ d ∈ s.presetTexts, d.IsScalar) → matchPreset s = .ok id → id ≠ "" →
      ∃ p, Preset.find? id = some p ∧ s.RendersAs (p.apply s)) ∧
    ∀ id p, Preset.find? id = some p → matchPreset (p.apply s) = .ok id := by
  constructor
  · intro id htexts h hid
    obtain ⟨p, hp, rfl, haccepted⟩ := Preset.matchPreset_eq_ok h hid
    have hself : p.accepts (p.apply s) = .ok true := by
      rw [Preset.accepts_apply, Preset.accepts_self p hp]
    have hscalar : ∀ d ∈ (p.apply s).presetTexts, d.IsScalar := by
      simp only [Preset.apply, ExportSettings.presetTexts, List.forall_mem_cons]
      exact ⟨trivial, trivial, trivial, trivial, trivial, List.forall_mem_nil _⟩
    exact ⟨p, Preset.find?_id p hp,
      Preset.rendersAs_of_accepted hp haccepted (Preset.accepts_eq_ok hself) htexts hscalar⟩
  · intro id p hfind
    have hid := List.find?_some hfind
    obtain rfl : p.id = id := beq_iff_eq.1 hid
    exact Preset.matchPreset_apply (List.mem_of_find?_eq_some hfind) s

/-- Settings with the values of a preset, put otherwise. -/
def respelled : ExportSettings where
  resolution := .size (some (.float (.ofInt 1280))) (some 720)
  fps := .text " 30 "
  videoBitrate := .null
  crf := .number (.float (.ofInt 28))
  preset := .text "veryfast"
  audioBitrate := .text "96k"

theorem rendersAs_of_respelled :
    (∀ d ∈ respelled.presetTexts, d.IsScalar) ∧ matchPreset respelled = .ok "small-share" ∧
      ∃ p, Preset.find? "small-share" = some p ∧ respelled.RendersAs (p.apply respelled) ∧
        matchPreset (p.apply respelled) = .ok "small-share" := by
  have htexts : ∀ d ∈ respelled.presetTexts, d.IsScalar := by
    simp only [respelled, ExportSettings.presetTexts, List.forall_mem_cons]
    exact ⟨trivial, trivial, trivial, trivial, trivial, List.forall_mem_nil _⟩
  have hmatch : matchPreset respelled = .ok "small-share" := by decide +kernel
  obtain ⟨hrenders, hfound⟩ := rendersAs_of_matchPreset respelled
  obtain ⟨p, hp, hwritten⟩ := hrenders "small-share" htexts hmatch (by decide)
  exact ⟨htexts, hmatch, p, hp, hwritten, hfound "small-share" p hp⟩

end Montage
