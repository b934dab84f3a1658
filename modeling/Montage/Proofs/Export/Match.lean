import Montage.Proofs.Export.Preset

/-!
Settings that cannot be compared with the presets.

Only a preset with the frame of the settings is compared with them any further, and there is at most
one.  The comparison goes through the settings in a fixed order, up to the first that is not the
preset's, and it fails where it meets a whole number that is too large to be a number of binary64
or to be written.
-/

namespace Montage

namespace Document

variable {d : Document}

theorem toBinary64_eq_tooLarge_iff :
    d.toBinary64 = .error .integerTooLarge ↔ ∃ n, d = .number (.int n) ∧ ¬(Number.int n).Fits := by
  cases d with
  | number x =>
      change x.toBinary64 = _ ↔ _
      rw [(OnlyTooLarge.toBinary64 x).eq_error_iff]
      cases x with
      | int n => simp [Number.Fits]
      | float y => simp [Number.toBinary64]
  | text s =>
      simp only [toBinary64]
      split <;> simp
  | _ => simp [toBinary64]

end Document

namespace Preset

variable {p : Preset} {s : ExportSettings} {f : Fault}

/-- Comparing settings with a preset fails: the frame is the preset's, and so are all settings that
are compared before one that is too large. -/
inductive Stuck (p : Preset) (s : ExportSettings) : Fault → Prop where
  /-- No binary64 value is near the whole number. -/
  | number {before after : List (Document × Number)} {n : Int} {x : Number}
      (hframe : s.resolution.agrees p.resolution = true)
      (hnumbers : p.numbers s = before ++ (.number (.int n), x) :: after)
      (hsame : ∀ e ∈ before, sameNumber e.1 e.2 = .ok true)
      (hlarge : ¬(Number.int n).Fits) : Stuck p s .integerTooLarge
  /-- The value holds a whole number with more digits than are written. -/
  | text {before after : List (Document × String)} {d : Document} {t : String}
      (hframe : s.resolution.agrees p.resolution = true)
      (hnumbers : ∀ e ∈ p.numbers s, sameNumber e.1 e.2 = .ok true)
      (htexts : p.texts s = before ++ (d, t) :: after)
      (hsame : ∀ e ∈ before, sameText e.1 e.2 = .ok true)
      (hlong : (d.orElse (.text "")).isTooLong = true) : Stuck p s .digitsWritten

theorem sameNumber_eq_error_iff {d : Document} {x : Number} :
    sameNumber d x = .error f ↔
      f = .integerTooLarge ∧ ∃ n, d = .number (.int n) ∧ ¬(Number.int n).Fits := by
  rw [← Document.toBinary64_eq_tooLarge_iff, sameNumber]
  split
  · next v hv => simp [hv]
  · next hv => simp [hv, eq_comm]
  · next g hg hv =>
      rw [hv, Except.error.injEq]
      exact ⟨nofun, fun h => absurd h.2 hg⟩

theorem sameText_eq_error_iff {d : Document} {t : String} :
    sameText d t = .error f ↔
      f = .digitsWritten ∧ (d.orElse (.text "")).isTooLong = true := by
  rw [sameText, Document.written]
  split
  · next h => simp [h, bind, Except.bind, eq_comm]
  · next h => simp [h, bind, Except.bind, pure, Except.pure]

section AllSame

variable {α : Type} {same : Document → α → Except Fault Bool} {l : List (Document × α)}

theorem allSame_of_all (h : ∀ e ∈ l, same e.1 e.2 = .ok true) : allSame same l = .ok true := by
  induction l with
  | nil => rfl
  | cons e rest ih =>
      obtain ⟨he, hrest⟩ := List.forall_mem_cons.1 h
      rw [allSame, he]
      exact ih hrest

theorem allSame_eq_error_iff :
    allSame same l = .error f ↔ ∃ before e after, l = before ++ e :: after ∧
      (∀ b ∈ before, same b.1 b.2 = .ok true) ∧ same e.1 e.2 = .error f := by
  refine ends_iff (fun l => allSame same l = .error f) nofun ?_
  intro e rest
  rw [allSame]
  rcases same e.1 e.2 with g | _ | _ <;> simp [bind, Except.bind, pure, Except.pure]

end AllSame

theorem accepts_eq_error_iff : p.accepts s = .error f ↔ p.Stuck s f := by
  have hbound : p.accepts s = .error f ↔ s.resolution.agrees p.resolution = true ∧
      (allSame sameNumber (p.numbers s) = .error f ∨
        allSame sameNumber (p.numbers s) = .ok true ∧ allSame sameText (p.texts s) = .error f) := by
    rw [accepts]
    cases s.resolution.agrees p.resolution with
    | false => simp [pure, Except.pure]
    | true =>
        rcases allSame sameNumber (p.numbers s) with g | _ | _ <;>
          simp [bind, Except.bind, pure, Except.pure]
  rw [hbound]
  constructor
  · rintro ⟨hframe, h | ⟨hnumbers, h⟩⟩
    · obtain ⟨before, ⟨d, x⟩, after, hlist, hsame, hd⟩ := allSame_eq_error_iff.1 h
      obtain ⟨rfl, n, rfl, hlarge⟩ := sameNumber_eq_error_iff.1 hd
      exact .number hframe hlist hsame hlarge
    · obtain ⟨before, ⟨d, t⟩, after, hlist, hsame, hd⟩ := allSame_eq_error_iff.1 h
      obtain ⟨rfl, hlong⟩ := sameText_eq_error_iff.1 hd
      exact .text hframe (allSame_eq_ok hnumbers) hlist hsame hlong
  · rintro (⟨hframe, hlist, hsame, hlarge⟩ | ⟨hframe, hnumbers, hlist, hsame, hlong⟩)
    · exact ⟨hframe, Or.inl (allSame_eq_error_iff.2 ⟨_, _, _, hlist, hsame,
        sameNumber_eq_error_iff.2 ⟨rfl, _, rfl, hlarge⟩⟩)⟩
    · exact ⟨hframe, Or.inr ⟨allSame_of_all hnumbers, allSame_eq_error_iff.2 ⟨_, _, _, hlist,
        hsame, sameText_eq_error_iff.2 ⟨rfl, hlong⟩⟩⟩⟩

/-- The search for a match fails at the first preset that does not just refuse the settings. -/
theorem firstMatch_eq_error_iff {l : List Preset} :
    firstMatch s l = .error f ↔ ∃ before p after, l = before ++ p :: after ∧
      (∀ q ∈ before, q.accepts s = .ok false) ∧ p.accepts s = .error f := by
  refine ends_iff (fun l => firstMatch s l = .error f) nofun ?_
  intro p rest
  rw [firstMatch]
  rcases p.accepts s with g | _ | _ <;> simp [bind, Except.bind, pure, Except.pure]

end Preset

/-- Two fixed frames are the same when one frame is the same as both. -/
theorem Frame.agrees_of_agrees {f g h : Frame} (hg : g.isFixed = true) (hh : h.isFixed = true)
    (hfg : f.agrees g = true) (hfh : f.agrees h = true) : g.agrees h = true := by
  have hnumber : ∀ {a b c : Option Number}, sameNumber a b = true → sameNumber a c = true →
      sameNumber b c = true := by
    intro a b c hab hac
    rcases a with _ | a <;> rcases b with _ | b <;> rcases c with _ | c
    case none.none.none => rfl
    case some.some.some =>
      obtain ⟨p, hp, hp'⟩ := Number.exists_places_of_eq hab
      obtain ⟨q, hq, hq'⟩ := Number.exists_places_of_eq hac
      obtain rfl := Option.some.inj (hp.symm.trans hq)
      exact (Number.eq_iff hp' hq').2 rfl
    all_goals first | exact absurd hab Bool.false_ne_true | exact absurd hac Bool.false_ne_true
  cases f with
  | size w v =>
      cases g with
      | named d => exact absurd hfg Bool.false_ne_true
      | size w' v' =>
          cases h with
          | named d => exact absurd hfh Bool.false_ne_true
          | size w'' v'' =>
              obtain ⟨hw, hv⟩ := Bool.and_eq_true_iff.1 hfg
              obtain ⟨hw', hv'⟩ := Bool.and_eq_true_iff.1 hfh
              exact Bool.and_eq_true_iff.2 ⟨hnumber hw hw', hnumber hv hv'⟩
  | named d =>
      unfold Frame.isFixed at hg hh
      split at hg
      · exact absurd hfg Bool.false_ne_true
      · split at hh
        · exact absurd hfh Bool.false_ne_true
        · obtain rfl := Document.agrees_text_iff.1 hfg
          exact hfh
        · exact absurd hh Bool.false_ne_true
      · exact absurd hg Bool.false_ne_true

namespace Preset

variable {s : ExportSettings} {f : Fault}

theorem frames_differ : all.Pairwise fun p q => p.resolution.agrees q.resolution = false := by
  decide +kernel

/-- Before the preset that has the frame of the settings, no other one has it. -/
theorem accepts_of_before {before after : List Preset} {p : Preset}
    (hall : all = before ++ p :: after) (hframe : s.resolution.agrees p.resolution = true) :
    ∀ q ∈ before, q.accepts s = .ok false := by
  intro q hq
  have hdiffer := frames_differ
  have hfixed := all_fixed
  rw [hall] at hdiffer hfixed
  have hother : s.resolution.agrees q.resolution = false := by
    by_contra hsame
    rw [Bool.not_eq_false] at hsame
    have hboth := Frame.agrees_of_agrees (hfixed q (List.mem_append_left _ hq)).1
      (hfixed p (List.mem_append_right _ List.mem_cons_self)).1 hsame hframe
    rw [(List.pairwise_append.1 hdiffer).2.2 q hq p List.mem_cons_self] at hboth
    exact Bool.false_ne_true hboth
  rw [accepts, hother]
  rfl

theorem Stuck.frame {p : Preset} (h : p.Stuck s f) : s.resolution.agrees p.resolution = true := by
  cases h with
  | number hframe => exact hframe
  | text hframe => exact hframe

/-- The preset of settings, or none, is found unless comparing them with a preset fails. -/
theorem matchPreset_eq_error_iff : matchPreset s = .error f ↔ ∃ p ∈ all, p.Stuck s f := by
  have hfirst : matchPreset s = .error f ↔ firstMatch s all = .error f := by
    rw [matchPreset]
    cases firstMatch s all <;> simp [bind, Except.bind, pure, Except.pure]
  rw [hfirst, firstMatch_eq_error_iff]
  constructor
  · rintro ⟨before, p, after, hall, -, hp⟩
    exact ⟨p, hall ▸ List.mem_append_right _ List.mem_cons_self, accepts_eq_error_iff.1 hp⟩
  · rintro ⟨p, hp, hstuck⟩
    obtain ⟨before, after, hall⟩ := List.append_of_mem hp
    exact ⟨before, p, after, hall, accepts_of_before hall hstuck.frame,
      accepts_eq_error_iff.2 hstuck⟩

end Preset

end Montage
