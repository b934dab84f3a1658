import Montage.Proofs.Snapshot.Bounds

/-!
How loading a snapshot fails.

A document that is not a snapshot is refused with a reason.  Four things in it fail in another way:
a whole number with more digits than are written, where it stands for a text; an infinite size or
one that is a NaN; and a collection as the name of a preset.
-/

namespace Montage

namespace Document

section TooLong

variable {n : Nat} {whole : Document}

theorem anyTooLong_eq (items : List Document) : anyTooLong items = items.any isTooLong := by
  induction items with
  | nil => rfl
  | cons d rest ih => rw [anyTooLong, List.any_cons, ih]

theorem anyEntryTooLong_eq (entries : List (Document × Document)) :
    anyEntryTooLong entries = entries.any fun e => e.1.isTooLong || e.2.isTooLong := by
  induction entries with
  | nil => rfl
  | cons e rest ih => rw [anyEntryTooLong, List.any_cons, ih]

mutual

/-- A loop put in for its number adds no digits. -/
theorem isTooLong_fill (h : whole.isTooLong = false) :
    (d : Document) → (fill n whole d).isTooLong = d.isTooLong
  | list items => by rw [fill, isTooLong, isTooLong, anyTooLong_fill h items]
  | map entries => by rw [fill, isTooLong, isTooLong, anyEntryTooLong_fill h entries]
  | pair key value => by
      rw [fill, isTooLong, isTooLong, isTooLong_fill h key, isTooLong_fill h value]
  | loop m body => by
      rw [fill]
      split
      · rfl
      · rw [isTooLong, isTooLong, isTooLong_fill h body]
  | back m => by
      rw [fill]
      split
      · exact h
      · rfl
  | null | bool _ | number _ | text _ | date _ | moment _ | bytes _ | set _ => rfl

theorem anyTooLong_fill (h : whole.isTooLong = false) :
    (items : List Document) → anyTooLong (fillItems n whole items) = anyTooLong items
  | [] => rfl
  | d :: rest => by
      rw [fillItems, anyTooLong, anyTooLong, isTooLong_fill h d, anyTooLong_fill h rest]

theorem anyEntryTooLong_fill (h : whole.isTooLong = false) :
    (entries : List (Document × Document)) →
      anyEntryTooLong (fillEntries n whole entries) = anyEntryTooLong entries
  | [] => rfl
  | (key, value) :: rest => by
      rw [fillEntries, anyEntryTooLong, anyEntryTooLong, isTooLong_fill h key,
        isTooLong_fill h value, anyEntryTooLong_fill h rest]

end

theorem isTooLong_of_face {d : Document} (h : d.face.isTooLong = true) : d.isTooLong = true := by
  cases d with
  | loop n body =>
      by_contra hshort
      have hwhole := Bool.eq_false_iff.2 hshort
      rw [face, isTooLong_fill hwhole] at h
      exact hshort h
  | _ => exact h

end TooLong

end Document

/-- Whatever keeps a value from being written as a text is among some failures. -/
def MayWrite (P : Failure → Prop) (d : Document) : Prop :=
  d.isTooLong = true → P (.fault .digitsWritten)

/-- Whatever keeps a value from being cut to a whole number is among some failures, the number's
own kind apart. -/
def MayCut (P : Failure → Prop) (d : Document) : Prop :=
  ∀ x, d = .number x → FailsOnly (fun f => P (.fault f)) x.truncate

section Parts

variable {P : Failure → Prop} {d : Document} {entries : Entries}

/-- Both parts of every entry may be written. -/
def AllMayWrite (P : Failure → Prop) (entries : Entries) : Prop :=
  ∀ e ∈ entries, MayWrite P e.1 ∧ MayWrite P e.2

theorem MayWrite.face (h : MayWrite P d) : MayWrite P d.face :=
  fun htoo => h (Document.isTooLong_of_face htoo)

theorem MayWrite.listed (h : MayWrite P d) : ∀ item ∈ d.listed, MayWrite P item := by
  intro item hitem htoo
  apply h.face
  rw [Document.listed] at hitem
  split at hitem
  · next items hface =>
      rw [hface, Document.isTooLong, Document.anyTooLong_eq]
      exact List.any_eq_true.2 ⟨item, hitem, htoo⟩
  · exact absurd hitem List.not_mem_nil

theorem MayWrite.keyed (h : MayWrite P d) : AllMayWrite P d.keyed := by
  have hany : ∀ e ∈ d.keyed, (e.1.isTooLong || e.2.isTooLong) = true →
      P (.fault .digitsWritten) := by
    intro e he htoo
    apply h.face
    rw [Document.keyed] at he
    split at he
    · next entries hface =>
        rw [hface, Document.isTooLong, Document.anyEntryTooLong_eq]
        exact List.any_eq_true.2 ⟨e, he, htoo⟩
    · exact absurd he List.not_mem_nil
  exact fun e he => ⟨fun hkey => hany e he (Bool.or_eq_true_iff.2 (Or.inl hkey)),
    fun hvalue => hany e he (Bool.or_eq_true_iff.2 (Or.inr hvalue))⟩

theorem MayWrite.ofMap (h : MayWrite P d) (hface : d.face = .map entries) :
    AllMayWrite P entries := by
  have hentries := h.keyed
  rwa [Document.keyed, hface] at hentries

theorem AllMayWrite.get? (h : AllMayWrite P entries) {key : String} {value : Document}
    (hvalue : Document.get? entries key = some value) : MayWrite P value := by
  obtain ⟨e, he, rfl⟩ := Option.map_eq_some_iff.1 hvalue
  exact (h e (List.mem_reverse.1 (List.mem_of_find?_eq_some he))).2

theorem AllMayWrite.get (h : AllMayWrite P entries) (key : String) :
    MayWrite P (Document.get entries key) := by
  rw [Document.get]
  cases hvalue : Document.get? entries key with
  | none => exact nofun
  | some value => exact h.get? hvalue

end Parts

section Steps

variable {α β : Type} {P : Failure → Prop}

theorem FailsOnly.liftRejection (hP : ∀ reason, P (.rejected reason)) (x : Except Rejection α) :
    FailsOnly P (liftM x : Except Failure α) := by
  cases x with
  | error reason => exact .error (hP reason)
  | ok a => exact .ok a

theorem FailsOnly.liftFault {x : Except Fault α} (h : FailsOnly (fun f => P (.fault f)) x) :
    FailsOnly P (liftM x : Except Failure α) := by
  cases x with
  | error f => exact .error (h f rfl)
  | ok a => exact .ok a

/-- What is thrown under a condition is a failure of its own. -/
theorem FailsOnly.unlessThrow {c : Prop} [Decidable c] {e : Failure} {f : α → Except Failure β}
    {x : Except Failure β} (he : P e) (hx : FailsOnly P x) :
    FailsOnly P (if c then throw e >>= f else x) := by
  split
  · exact .error he
  · exact hx

theorem MayWrite.written {d : Document} (h : MayWrite P d) :
    FailsOnly P (liftM d.written : Except Failure String) := by
  apply FailsOnly.liftFault
  rw [Document.written]
  split
  · next htoo => exact .error (h htoo)
  · exact .ok _

end Steps

namespace Reading

/-- A part that is there is the value of its key. -/
theorem part_cases (entries : Entries) (key : String) (absent : Document) :
    part entries key absent = Document.get entries key ∨ part entries key absent = absent := by
  rw [part, Document.get]
  cases Document.get? entries key with
  | none => exact Or.inr rfl
  | some value => exact Or.inl rfl

theorem part_mayCut {P : Failure → Prop} {entries : Entries} {key : String}
    (h : MayCut P (Document.get entries key)) : MayCut P (part entries key (.number 0)) := by
  rcases part_cases entries key (.number 0) with hpart | hpart
  · rwa [hpart]
  · rw [hpart]
    rintro x ⟨⟩
    exact .ok 0

theorem failsOnly_items {P : Failure → Prop} {α : Type}
    {read : Nat → Document → List α → Except Failure α} {ds : List Document}
    (h : ∀ d ∈ ds, ∀ i before, FailsOnly P (read i d before)) (i : Nat) (before : List α) :
    FailsOnly P (items read i before ds) := by
  induction ds generalizing i before with
  | nil => exact .ok before
  | cons d rest ih =>
      obtain ⟨hd, hrest⟩ := List.forall_mem_cons.1 h
      exact .bind (hd i before) fun item => ih hrest (i + 1) (before ++ [item])

section Failures

variable {P : Failure → Prop} (hP : ∀ reason, P (.rejected reason))
include hP

theorem failsOnly_text (label : String) {d : Document} (h : MayWrite P d) :
    FailsOnly P (text label d) := by
  unfold text
  split
  · exact .ok _
  · exact .ok _
  · exact h.written
  · exact .error (hP _)

theorem failsOnly_size (label : String) {d : Document} (h : MayCut P d) :
    FailsOnly P (size label d) := by
  unfold size number
  split
  · next x => exact .liftFault (h x rfl)
  · exact .error (hP _)

theorem failsOnly_presence {d : Document} (h : MayWrite P d) :
    FailsOnly P (Presence.ofDocument d) := by
  unfold Presence.ofDocument
  split
  · exact .ok _
  · exact .ok _
  · refine .bind h.written fun word => ?_
    split
    · exact .ok _
    · exact .error (hP _)

theorem failsOnly_putEntries {K : Type} [FilterKey K] [DecidableEq K] (label : String)
    {entries : Entries} (h : AllMayWrite P entries) (base : FilterSet K) :
    FailsOnly P (base.putEntries label entries) := by
  induction entries generalizing base with
  | nil => exact .ok base
  | cons e rest ih =>
      obtain ⟨⟨hkey, -⟩, hrest⟩ := List.forall_mem_cons.1 h
      obtain ⟨key, value⟩ := e
      unfold FilterSet.putEntries
      split
      · exact .bind hkey.written fun _ => .error (hP _)
      · exact ih hrest base
      · exact .bind (.liftRejection hP _) fun v => ih hrest _

theorem failsOnly_filters {K : Type} [FilterKey K] [DecidableEq K] (label : String)
    (base : FilterSet K) {d : Document} (h : MayWrite P d) :
    FailsOnly P (FilterSet.ofDocument label base d) := by
  unfold FilterSet.ofDocument
  split
  · exact .ok base
  · next entries hface => exact failsOnly_putEntries hP label (h.ofMap hface) base
  · exact .error (hP _)

theorem failsOnly_media (label : String) (seen : List String) {entries : Entries}
    (h : AllMayWrite P entries) (hwidth : MayCut P (Document.get entries "width"))
    (hheight : MayCut P (Document.get entries "height")) :
    FailsOnly P (media label seen entries) := by
  refine .unlessThrow (hP _) ?_
  refine .bind (h.get "id").written fun id => ?_
  refine .unlessThrow (hP _) ?_
  refine .bind (h.get "name").written fun name => ?_
  refine .bind (failsOnly_text hP _ (h.get "type")) fun mimeType => ?_
  refine .bind (.liftRejection hP _) fun duration => ?_
  refine .bind (failsOnly_size hP _ (part_mayCut hwidth)) fun width => ?_
  refine .bind (failsOnly_size hP _ (part_mayCut hheight)) fun height => ?_
  refine .bind (.liftRejection hP _) fun offline => ?_
  refine .bind (failsOnly_presence hP (h.get "has_video")) fun video => ?_
  exact .bind (failsOnly_presence hP (h.get "has_audio")) fun audio => .ok _

theorem failsOnly_track (label : String) {entries : Entries} (h : AllMayWrite P entries) :
    FailsOnly P (track label entries) := by
  refine .bind (.liftRejection hP _) fun id => ?_
  refine .bind (failsOnly_text hP _ (h.get "name")) fun name => ?_
  refine .bind (.liftRejection hP _) fun muted => ?_
  refine .bind (.liftRejection hP _) fun locked => ?_
  exact .bind (.liftRejection hP _) fun visible => .ok _

theorem failsOnly_clip (label : String) {entries : Entries} (h : AllMayWrite P entries) :
    FailsOnly P (clip label entries) := by
  refine .unlessThrow (hP _) ?_
  refine .bind (.liftRejection hP _) fun track => ?_
  refine .bind (.liftRejection hP _) fun start => ?_
  refine .bind (.liftRejection hP _) fun duration => ?_
  refine .unlessThrow (hP _) ?_
  refine .bind (.liftRejection hP _) fun trimStart => ?_
  refine .bind (.liftRejection hP _) fun speed => ?_
  refine .unlessThrow (hP _) ?_
  refine .bind (.liftRejection hP _) fun volume => ?_
  refine .bind (h.get "id").written fun id => ?_
  refine .bind (h.get "media").written fun mediaId => ?_
  refine .bind (.liftRejection hP _) fun reversed => ?_
  refine .bind (.liftRejection hP _) fun muted => ?_
  refine .bind (.liftRejection hP _) fun visible => ?_
  refine .bind (failsOnly_filters hP _ _ (h.get "video_filters")) fun videoFilters => ?_
  refine .bind (failsOnly_filters hP _ _ (h.get "audio_filters")) fun audioFilters => ?_
  refine .bind (failsOnly_text hP _ (h.get "name")) fun name => ?_
  exact .bind (.liftRejection hP _) fun trimEnd => .ok _

omit hP in
/-- A track that was read is one that may be written. -/
theorem mayWrite_track {entries : Entries} (h : AllMayWrite P entries) {track : Int}
    (htrack : part entries "track" (.number 0) = .number (.int track)) :
    MayWrite P (.number (.int track)) := by
  rcases part_cases entries "track" (.number 0) with hpart | hpart
  · rw [← htrack, hpart]
    exact h.get "track"
  · have hzero : Number.int 0 = .int track := Document.number.inj (hpart.symm.trans htrack)
    obtain rfl := Number.int.inj hzero
    intro htoo
    have hlimit : 0 < Nat.pow 10 Fault.digitLimit := by decide +kernel
    exact absurd (of_decide_eq_true htoo) hlimit.not_ge

theorem failsOnly_clipItem (tracks : List Track) (i : Nat) {d : Document} (h : MayWrite P d)
    (before : List Clip) : FailsOnly P (clipItem tracks i d before) := by
  rw [clipItem]
  split
  · next entries hface =>
      have hentries := h.ofMap hface
      refine .bindOk (failsOnly_clip hP _ hentries) fun c hc => ?_
      refine .unlessThrow (hP _) (.ite ?_ (.ok c))
      have htrack := mayWrite_track hentries (clip_eq_ok hc).track
      exact .bind htrack.written fun _ => .error (hP _)
  · exact .error (hP _)

theorem failsOnly_mediaItem (i : Nat) {d : Document} (h : MayWrite P d)
    (hwidth : MayCut P (Document.get d.keyed "width"))
    (hheight : MayCut P (Document.get d.keyed "height")) (before : List (Media × MediaInfo)) :
    FailsOnly P (mediaItem i d before) := by
  rw [mediaItem]
  split
  · next entries hface =>
      rw [Document.keyed, hface] at hwidth hheight
      exact failsOnly_media hP _ _ (h.ofMap hface) hwidth hheight
  · exact .error (hP _)

theorem failsOnly_trackItem (i : Nat) {d : Document} (h : MayWrite P d) (before : List Track) :
    FailsOnly P (trackItem i d before) := by
  rw [trackItem]
  split
  · next entries hface => exact failsOnly_track hP _ (h.ofMap hface)
  · exact .error (hP _)

theorem failsOnly_defaults {d : Document} (h : MayWrite P d) : FailsOnly P (defaults d) := by
  refine .bindOk (.liftRejection hP _) fun entries hentries => ?_
  rw [mapping_eq_ok (liftRejection_eq_ok.1 hentries)]
  refine .bind (failsOnly_filters hP _ _ (h.keyed.get "video")) fun video => ?_
  exact .bind (failsOnly_filters hP _ _ (h.keyed.get "audio")) fun audio => .ok _

theorem failsOnly_checkExportKeys {entries : Entries} (h : AllMayWrite P entries) :
    FailsOnly P (checkExportKeys entries) := by
  induction entries with
  | nil => exact .ok ()
  | cons e rest ih =>
      obtain ⟨⟨hkey, -⟩, hrest⟩ := List.forall_mem_cons.1 h
      exact .ite (ih hrest) (.bind hkey.written fun _ => .error (hP _))

theorem failsOnly_presetNamed {d : Document} (h : MayWrite P d)
    (hkey : d.isKey = false → P (.fault (.lookupKind d.kind))) :
    FailsOnly P (presetNamed d) := by
  unfold presetNamed
  split
  · split
    · exact .ok _
    · exact .error (hP _)
  · split
    · exact .bind h.written fun _ => .error (hP _)
    · next hnot => exact .error (hkey (Bool.eq_false_iff.2 hnot))

theorem failsOnly_presetSettings {d : Document} (h : MayWrite P d)
    (hkey : d.isVoid = false → d.isKey = false → P (.fault (.lookupKind d.kind))) :
    FailsOnly P (presetSettings d) := by
  rw [presetSettings]
  split
  · exact .ok _
  · next hset =>
      exact .bind (failsOnly_presetNamed hP h (hkey (Bool.eq_false_iff.2 hset))) fun p => .ok _

theorem failsOnly_frame {d : Document} (h : ∀ item ∈ d.listed, MayCut P item) :
    FailsOnly P (frame d) := by
  rw [frame]
  split
  · exact .ok _
  · next w height hface =>
      rw [Document.listed, hface] at h
      refine .bind (failsOnly_size hP _ (h w (by simp))) fun width => ?_
      refine .bind (failsOnly_size hP _ (h height (by simp))) fun height => ?_
      exact .unlessThrow (hP _) (.ok _)
  · exact .ite (.ok _) (.error (hP _))

section Overrides

variable {entries : Entries} (s : ExportSettings)

theorem failsOnly_overrideFrame
    (h : ∀ item ∈ (Document.get entries "resolution").listed, MayCut P item) :
    FailsOnly P (overrideFrame entries s) := by
  rw [overrideFrame]
  split
  · exact .ok s
  · next d hd =>
      rw [Document.get, hd, Option.getD_some] at h
      exact .bind (failsOnly_frame hP h) fun f => .ok _

theorem failsOnly_overrideEnd : FailsOnly P (overrideEnd entries s) := by
  unfold overrideEnd
  split
  · exact .ok s
  · exact .bind (.liftRejection hP _) fun x => .ok _

omit hP in
theorem failsOnly_override {α : Type} {key : String}
    {read : String → Document → Except Failure α} {change : α → ExportSettings → ExportSettings}
    (hread : ∀ label d, Document.get? entries key = some d → FailsOnly P (read label d)) :
    FailsOnly P (override entries key read change s) := by
  rw [override]
  split
  · exact .ok s
  · next d hd => exact .bind (hread _ d hd) fun value => .ok _

theorem failsOnly_overrides (h : AllMayWrite P entries)
    (hframe : ∀ item ∈ (Document.get entries "resolution").listed, MayCut P item) :
    FailsOnly P (overrides entries s) := by
  have hchecked : ∀ {α : Type} {key : String} {read : String → Document → Except Rejection α}
      {change : α → ExportSettings → ExportSettings} (s : ExportSettings),
      FailsOnly P (override entries key (read · ·) change s) :=
    fun s => failsOnly_override s fun _ _ _ => .liftRejection hP _
  have htext : ∀ {key : String} {change : String → ExportSettings → ExportSettings}
      (s : ExportSettings), FailsOnly P (override entries key text change s) :=
    fun s => failsOnly_override s fun _ _ hd => failsOnly_text hP _ (h.get? hd)
  refine .bind (failsOnly_overrideFrame hP s hframe) fun s => ?_
  refine .bind (hchecked s) fun s => .bind (hchecked s) fun s => .bind (hchecked s) fun s => ?_
  refine .bind (hchecked s) fun s => .bind (failsOnly_overrideEnd hP s) fun s => ?_
  refine .bind (htext s) fun s => .bind (htext s) fun s => .bind (htext s) fun s => ?_
  refine .bind (htext s) fun s => .bind (htext s) fun s => .bind (htext s) fun s => ?_
  exact .bind (htext s) fun s => .bind (hchecked s) fun s => hchecked s

end Overrides

theorem failsOnly_settings (output : Option String) {preset : Option String} {d : Document}
    (h : MayWrite P d)
    (hframe : ∀ item ∈ (Document.get d.keyed "resolution").listed, MayCut P item)
    (hkey : preset.filter (!·.isEmpty) = none →
      (Document.get d.keyed "preset").isVoid = false →
      (Document.get d.keyed "preset").isKey = false →
      P (.fault (.lookupKind (Document.get d.keyed "preset").kind))) :
    FailsOnly P (settings output preset d) := by
  refine .bindOk (.liftRejection hP _) fun entries hentries => ?_
  obtain rfl := mapping_eq_ok (liftRejection_eq_ok.1 hentries)
  refine .bind (failsOnly_checkExportKeys hP h.keyed) fun _ => ?_
  refine .bind ?_ fun s => .bind (failsOnly_overrides hP s h.keyed hframe) fun s => ?_
  · cases hchosen : preset.filter (!·.isEmpty) with
    | none => exact failsOnly_presetSettings hP (h.keyed.get "preset") (hkey hchosen)
    | some id => exact failsOnly_presetSettings hP nofun nofun
  · cases output.filter (!·.isEmpty) with
    | none => exact .ok s
    | some name => exact .ok _

end Failures

end Reading

/-- The values that are cut to whole numbers: the sizes of media and of the frame. -/
def Document.sizes (d : Document) : List Document :=
  (get d.keyed "media").listed.flatMap (fun m => [get m.keyed "width", get m.keyed "height"])
    ++ (get (get d.keyed "export").keyed "resolution").listed

namespace Snapshot

/-- The ways in which a document fails to be a snapshot. -/
inductive Fails (preset : Option String) (d : Document) : Failure → Prop where
  | rejected (reason : Rejection) : Fails preset d (.rejected reason)
  /-- A whole number has too many digits to be written. -/
  | digits (h : d.isTooLong = true) : Fails preset d (.fault .digitsWritten)
  | infinite {negative : Bool} (h : .number (.float (.infinity negative)) ∈ d.sizes) :
      Fails preset d (.fault .infinityToInteger)
  | nan (h : .number (.float .nan) ∈ d.sizes) : Fails preset d (.fault .nanToInteger)
  /-- The name of a preset, which none from outside replaces, is a collection. -/
  | lookup {value : Document} (hpreset : preset.filter (!·.isEmpty) = none)
      (hvalue : value = Document.get (Document.get d.keyed "export").keyed "preset")
      (hset : value.isVoid = false) (hkey : value.isKey = false) :
      Fails preset d (.fault (.lookupKind value.kind))

variable {preset : Option String} {d : Document}

theorem Fails.mayCut {value : Document} (h : value ∈ d.sizes) : MayCut (Fails preset d) value := by
  rintro x rfl
  cases x with
  | int n => exact .ok n
  | float y =>
      cases y with
      | finite negative m hm => exact .ok _
      | infinity negative => exact .error (.infinite h)
      | nan => exact .error (.nan h)

theorem failsOnly_ofDocument (output preset : Option String) (d : Document) :
    FailsOnly (Fails preset d) (ofDocument output preset d) := by
  have hP : ∀ reason, Fails preset d (.rejected reason) := .rejected
  have hd : MayWrite (Fails preset d) d := .digits
  rw [ofDocument]
  split
  · next entries hface =>
      obtain rfl : d.keyed = entries := by rw [Document.keyed, hface]
      have hpart := hd.keyed.get
      refine .unlessThrow (hP _) (.unlessThrow (hP _) (.unlessThrow (hP _) ?_))
      refine .bindOk (.liftRejection hP _) fun mediaItems hmedia => ?_
      obtain rfl := Reading.list_eq_ok (liftRejection_eq_ok.1 hmedia)
      refine .bind (Reading.failsOnly_items ?_ 0 []) fun media => ?_
      · intro m hm i before
        have hsizes : ∀ value ∈ [Document.get m.keyed "width", Document.get m.keyed "height"],
            MayCut (Fails preset d) value := fun value hvalue =>
          Fails.mayCut (List.mem_append_left _ (List.mem_flatMap.2 ⟨m, hm, hvalue⟩))
        exact Reading.failsOnly_mediaItem hP i ((hpart "media").listed m hm)
          (hsizes _ (by simp)) (hsizes _ (by simp)) before
      refine .bindOk (.liftRejection hP _) fun trackItems htracks => ?_
      obtain rfl := Reading.list_eq_ok (liftRejection_eq_ok.1 htracks)
      refine .bind (Reading.failsOnly_items ?_ 0 []) fun tracks => ?_
      · exact fun t ht i before =>
          Reading.failsOnly_trackItem hP i ((hpart "tracks").listed t ht) before
      refine .bindOk (.liftRejection hP _) fun clipItems hclips => ?_
      obtain rfl := Reading.list_eq_ok (liftRejection_eq_ok.1 hclips)
      refine .bind (Reading.failsOnly_items ?_ 0 []) fun clips => ?_
      · exact fun c hc i before =>
          Reading.failsOnly_clipItem hP tracks i ((hpart "clips").listed c hc) before
      refine .bind (Reading.failsOnly_defaults hP (hpart "defaults")) fun defaults => ?_
      refine .bind (Reading.failsOnly_settings hP output (hpart "export") ?_ ?_) fun settings =>
        .ok _
      · exact fun item hitem => Fails.mayCut (List.mem_append_right _ hitem)
      · exact fun hpreset hset hkey => .lookup hpreset rfl hset hkey
  · exact .error (hP _)

/-- Any document is loaded as a snapshot or refused with a reason, unless it fails in one of the
few other ways. -/
theorem loads_or_fails (name : String) (output preset : Option String) (size : Nat)
    (d : Document) :
    (∃ s, load name output preset (some ⟨size, .ok d⟩) = .ok s) ∨
      ∃ f, load name output preset (some ⟨size, .ok d⟩) = .error f ∧ Fails preset d f := by
  have hfails : FailsOnly (Fails preset d) (load name output preset (some ⟨size, .ok d⟩)) :=
    .unlessThrow (.rejected .tooLarge) (failsOnly_ofDocument output preset d)
  cases hload : load name output preset (some ⟨size, .ok d⟩) with
  | ok s => exact Or.inl ⟨s, rfl⟩
  | error f => exact Or.inr ⟨f, rfl, hfails f hload⟩

end Snapshot

/-- A file with a film of some width, which is not used. -/
def wideFilm (width : Number) : SnapshotFile where
  size := 100
  content := .ok (.map [
    (.text "stackcut", .number 1),
    (.text "media", .list [.map [(.text "id", .text "film"), (.text "name", .text "film.mp4"),
      (.text "width", .number width)]]),
    (.text "clips", .list [])])

/-- An infinite width is no reason to refuse a film, and cannot be cut to a whole number. -/
theorem load_wideFilm_infinite :
    Snapshot.load "film.yaml" none none (some (wideFilm (.float (.infinity false)))) =
      .error (.fault .infinityToInteger) :=
  eq_error_of_map_eq (f := fun _ => ()) (by decide +kernel)

end Montage
