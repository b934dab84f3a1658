import Mathlib.Data.List.Forall2
import Mathlib.Data.List.Nodup
import Montage.Export.Graph
import Montage.Proofs.Fault

/-!
Filter graphs are well formed.

The inputs are collected before the chains are built, by a look at the same segments.  So every
winner finds its media among the inputs, and the pads of the chains lead where they should: each
kept segment takes the streams of its winners and gives two labels, which the last chain takes in
the same order.
-/

namespace Montage

/-- The letter of a channel in labels and in the pads of inputs. -/
def Channel.letter : Channel → String
  | .video => "v"
  | .audio => "a"

/-- The label of what a segment gives on a channel, by its place in the list. -/
def Channel.label (channel : Channel) (place : Nat) : String :=
  channel.letter ++ toString place

/-- The pad of an input that gives the stream of a channel. -/
def Channel.pad (channel : Channel) (input : Nat) : String :=
  toString input ++ ":" ++ channel.letter

section Labels

variable {channel other : Channel} {i j : Nat}

theorem toString_inj_of_digits (h : (toString i).toList = (toString j).toList) :
    i = j := by
  have hdigits : Nat.toDigits 10 i = Nat.toDigits 10 j :=
    Nat.toList_repr.symm.trans (h.trans Nat.toList_repr)
  calc
    i = Nat.ofDigitChars 10 (Nat.toDigits 10 i) 0 :=
      Nat.ofDigitChars_ten_toDigits.symm
    _ = Nat.ofDigitChars 10 (Nat.toDigits 10 j) 0 := by rw [hdigits]
    _ = j := Nat.ofDigitChars_ten_toDigits

theorem Channel.label_inj :
    channel.label i = other.label j ↔ channel = other ∧ i = j := by
  constructor
  · intro h
    have hchars := congrArg String.toList h
    simp only [label, String.toList_append] at hchars
    cases channel <;> cases other
    case video.video | audio.audio =>
      obtain ⟨-, hdigits⟩ := List.cons.inj hchars
      exact ⟨rfl, toString_inj_of_digits hdigits⟩
    all_goals exact absurd (List.cons.inj hchars).1 (by decide)
  · rintro ⟨rfl, rfl⟩
    rfl

/-- A pad begins with a digit, a label with a letter. -/
theorem Channel.label_ne_pad : channel.label i ≠ other.pad j := by
  intro h
  have hchars := congrArg String.toList h
  simp only [label, pad, String.toList_append] at hchars
  have hdigits : (toString j).toList = Nat.toDigits 10 j := Nat.toList_repr
  obtain ⟨d, rest, hrest⟩ :=
    List.exists_cons_of_ne_nil (Nat.toDigits_ne_nil (b := 10) (n := j))
  have hdigit : d.isDigit = true :=
    Nat.isDigit_of_mem_toDigits (by decide) (by decide)
      (hrest ▸ List.mem_cons_self)
  rw [hdigits, hrest] at hchars
  have hletter : channel.letter.toList = [d] := by
    cases channel <;> exact congrArg ([·]) (List.cons.inj hchars).1
  cases channel <;> obtain rfl := List.singleton_inj.1 hletter <;>
    exact absurd hdigit (by decide)

theorem Channel.label_ne_output (channel : Channel) (i : Nat) :
    channel.label i ≠ videoOutput ∧ channel.label i ≠ audioOutput := by
  constructor
  all_goals
    intro h
    have hchars := congrArg String.toList h
    simp only [label, String.toList_append] at hchars
    cases channel <;> exact absurd (List.cons.inj hchars).1 (by decide)

end Labels

namespace GraphContext

variable {g : GraphContext} {s : Segment} {c : Clip} {m : Media}
  {inputs : List Media} {segments : List Segment}

/-- Whether a media item has the stream of a channel. -/
def hasStream (g : GraphContext) (channel : Channel) (m : Media) : Bool :=
  match channel with
  | .video => m.hasVideo (g.sources.infoOf m)
  | .audio => m.hasAudio (g.sources.infoOf m)

/-- What it takes to keep a segment: it does not last for zero or less, and the
media of every winner are in the catalogue and online. -/
structure Keeps (g : GraphContext) (s : Segment) : Prop where
  lasts : ∃ d, s.duration = .ok d ∧ d.le 0 = false
  online : ∀ channel, ∀ c ∈ s.winner? channel,
    ∃ m, g.sources.mediaOf? c = some m ∧ m.offline = false

theorem mediaFor?_eq_some :
    g.mediaFor? c = some m ↔ g.sources.mediaOf? c = some m ∧ m.offline = false := by
  rw [mediaFor?, Option.filter_eq_some_iff, Bool.not_eq_true']

theorem mem_winners : c ∈ winners s ↔ ∃ channel, s.winner? channel = some c := by
  simp only [winners, List.mem_append, Option.mem_toList]
  constructor
  · rintro (h | h)
    · exact ⟨.video, h⟩
    · exact ⟨.audio, h⟩
  · rintro ⟨_ | _, h⟩
    · exact Or.inl h
    · exact Or.inr h

theorem available_iff : g.available s = true ↔
    ∀ channel, ∀ c ∈ s.winner? channel,
      ∃ m, g.sources.mediaOf? c = some m ∧ m.offline = false := by
  simp only [available, List.all_eq_true, mem_winners, Option.isSome_iff_exists,
    mediaFor?_eq_some, forall_exists_index]
  exact ⟨fun h channel c hc => h c channel hc, fun h c channel hc => h channel c hc⟩

theorem keeps_iff : g.keeps s = .ok true ↔ g.Keeps s := by
  simp only [keeps, bind_eq_ok]
  constructor
  · rintro ⟨d, hd, h⟩
    have hboth := Bool.and_eq_true_iff.1 (Except.ok.inj h)
    exact ⟨⟨d, hd, by simpa using hboth.1⟩, available_iff.1 hboth.2⟩
  · rintro ⟨⟨d, hd, hlasts⟩, honline⟩
    refine ⟨d, hd, congrArg Except.ok ?_⟩
    rw [hlasts, available_iff.2 honline]
    rfl

instance (g : GraphContext) (s : Segment) : Decidable (g.Keeps s) :=
  decidable_of_iff _ keeps_iff

/-- The kept segments among those from a place on, each with its own place. -/
def keptFrom (g : GraphContext) (place : Nat) (segments : List Segment) :
    List (Segment × Nat) :=
  (segments.zipIdx place).filter fun k => g.Keeps k.1

theorem keptFrom_cons (place : Nat) (s : Segment) (rest : List Segment) :
    g.keptFrom place (s :: rest) =
      if g.Keeps s then (s, place) :: g.keptFrom (place + 1) rest
      else g.keptFrom (place + 1) rest := by
  simp only [keptFrom, List.zipIdx_cons, List.filter_cons, decide_eq_true_eq]

/-- Media that were collected for some ids: each once, as the ids first occur,
and online. -/
structure Collects (g : GraphContext) (inputs : List Media) (ids : List String) :
    Prop where
  ids_eq : inputs.map Media.id = ids.eraseDups
  nodup : (inputs.map Media.id).Nodup
  online : ∀ m ∈ inputs, findMedia? g.sources.media m.id = some m ∧
    m.offline = false

theorem id_eq_of_mediaOf? (h : g.sources.mediaOf? c = some m) : m.id = c.mediaId := by
  have hid := List.find?_some h
  exact beq_iff_eq.1 hid

theorem Collects.add {ids : List String} (h : g.Collects inputs ids)
    (hm : g.mediaFor? c = some m) :
    g.Collects (if inputs.any (·.id == m.id) then inputs else inputs ++ [m])
      (ids ++ [c.mediaId]) := by
  obtain ⟨hmedia, honline⟩ := mediaFor?_eq_some.1 hm
  have hid := id_eq_of_mediaOf? hmedia
  have hmem : inputs.any (·.id == m.id) = true ↔ c.mediaId ∈ ids := by
    rw [← List.mem_eraseDups, ← h.ids_eq, List.mem_map, List.any_eq_true, hid]
    simp only [beq_iff_eq]
  split
  · next hany =>
      refine ⟨?_, h.nodup, h.online⟩
      rw [h.ids_eq, List.eraseDups_append]
      simp [List.removeAll, hmem.1 hany]
  · next hany =>
      have hnew : c.mediaId ∉ ids := mt hmem.2 hany
      have hids : (inputs ++ [m]).map Media.id =
          inputs.map Media.id ++ [c.mediaId] := by
        rw [List.map_append, List.map_singleton, hid]
      refine ⟨?_, ?_, ?_⟩
      · rw [hids, h.ids_eq, List.eraseDups_append]
        simp [List.removeAll, hnew, List.eraseDups_cons]
      · rw [hids, List.nodup_append]
        refine ⟨h.nodup, List.nodup_singleton _, ?_⟩
        rintro x hx y hy rfl
        rw [h.ids_eq, List.mem_eraseDups] at hx
        exact hnew (List.mem_singleton.1 hy ▸ hx)
      · intro m' hm'
        rcases List.mem_append.1 hm' with hm' | hm'
        · exact h.online m' hm'
        · obtain rfl := List.mem_singleton.1 hm'
          exact ⟨hid ▸ hmedia, honline⟩

theorem Collects.addInputs {ids : List String} {clips : List Clip}
    (h : g.Collects inputs ids) (hclips : ∀ c ∈ clips, ∃ m, g.mediaFor? c = some m) :
    g.Collects (g.addInputs inputs clips) (ids ++ clips.map Clip.mediaId) := by
  induction clips generalizing inputs ids with
  | nil => simpa [GraphContext.addInputs] using h
  | cons c rest ih =>
      obtain ⟨⟨m, hm⟩, hrest⟩ := List.forall_mem_cons.1 hclips
      have hlater := ih (h.add hm) hrest
      rw [List.append_assoc] at hlater
      simp only [GraphContext.addInputs, List.foldl_cons, hm]
      exact hlater

/-- The media ids of the winners of kept segments. -/
def keptIds (kept : List (Segment × Nat)) : List String :=
  kept.flatMap fun k => (winners k.1).map Clip.mediaId

theorem collects_foldlM {ids : List String} {first : List Media} (place : Nat)
    (h : g.Collects first ids)
    (hinputs : segments.foldlM (fun inputs s => do
      return if ← g.keeps s then g.addInputs inputs (winners s) else inputs) first =
        .ok inputs) :
    g.Collects inputs (ids ++ keptIds (g.keptFrom place segments)) := by
  induction segments generalizing first ids place with
  | nil =>
      obtain rfl : first = inputs := Except.ok.inj hinputs
      simpa [keptFrom, keptIds] using h
  | cons s rest ih =>
      simp only [List.foldlM_cons, bind_eq_ok] at hinputs
      obtain ⟨next, ⟨keeps, hkeeps, hnext⟩, hinputs⟩ := hinputs
      obtain rfl := Except.ok.inj hnext
      rw [keptFrom_cons]
      cases keeps with
      | false =>
          have hnot : ¬g.Keeps s := by
            rw [← keeps_iff, hkeeps]
            simp
          rw [if_neg hnot]
          exact ih (place + 1) h hinputs
      | true =>
          have hkept := keeps_iff.1 hkeeps
          have hclips : ∀ c ∈ winners s, ∃ m, g.mediaFor? c = some m := by
            intro c hc
            obtain ⟨channel, hc⟩ := mem_winners.1 hc
            obtain ⟨m, hm⟩ := hkept.online channel c hc
            exact ⟨m, mediaFor?_eq_some.2 hm⟩
          have hlater := ih (place + 1) (h.addInputs hclips) hinputs
          rw [List.append_assoc] at hlater
          rw [if_pos hkept]
          exact hlater

/-- What a chain of a segment takes on a channel: the stream of the winner, where
there is one. -/
structure Takes (g : GraphContext) (inputs : List Media) (channel : Channel)
    (s : Segment) (label : String) (chain : Chain) : Prop where
  outputs_eq : chain.outputs = [label]
  inputs_cases :
    (chain.inputs = [] ∧ ∀ c ∈ s.winner? channel, ∀ m,
      g.sources.mediaOf? c = some m → g.hasStream channel m = false) ∨
    ∃ c m, s.winner? channel = some c ∧ g.sources.mediaOf? c = some m ∧
      g.hasStream channel m = true ∧
      chain.inputs = [sourcePad inputs m channel.letter]

theorem hasStream_eq_false {channel : Channel} (hw : s.winner? channel = some c)
    (hm : g.sources.mediaOf? c = some m) (hstream : ¬g.hasStream channel m = true) :
    ∀ c ∈ s.winner? channel, ∀ m,
      g.sources.mediaOf? c = some m → g.hasStream channel m = false := by
  rw [hw]
  rintro d ⟨⟩ n hn
  obtain rfl : m = n := Option.some.inj (hm.symm.trans hn)
  exact Bool.eq_false_iff.2 hstream

theorem pads_of_picture {label : String} {chain : Chain}
    (h : g.picture inputs s c m label = .ok chain) :
    chain.inputs = [sourcePad inputs m "v"] ∧ chain.outputs = [label] := by
  simp only [picture, bind_eq_ok] at h
  obtain ⟨d, -, w, -, start, -, stop, -, speed, -, effects, -, h⟩ := h
  obtain rfl := Except.ok.inj h
  exact ⟨rfl, rfl⟩

theorem pads_of_sound {label : String} {chain : Chain}
    (h : g.sound inputs s c m label = .ok chain) :
    chain.inputs = [sourcePad inputs m "a"] ∧ chain.outputs = [label] := by
  simp only [sound, bind_eq_ok] at h
  obtain ⟨d, -, w, -, start, -, stop, -, tempo, -, effects, -, h⟩ := h
  split at h
  all_goals
    obtain ⟨clicks, -, h⟩ := bind_eq_ok.1 h
    obtain rfl := Except.ok.inj h
    exact ⟨rfl, rfl⟩

/-- A chain that plays the winner where its media has the stream, and nothing
where there is no such stream. -/
theorem takes_of_chain {channel : Channel} {label : String} {chain : Chain}
    (played : Clip → Media → Except Fault Chain) {blank : Number → Chain}
    (hs : g.Keeps s)
    (hplayed : ∀ c m chain, played c m = .ok chain →
      chain.inputs = [sourcePad inputs m channel.letter] ∧ chain.outputs = [label])
    (hblank : ∀ d, (blank d).inputs = [] ∧ (blank d).outputs = [label])
    (h : (match (s.winner? channel).bind fun c =>
          (g.mediaFor? c).map fun m => (c, m) with
        | none => return blank (← s.duration)
        | some (c, m) =>
          if g.hasStream channel m then played c m
          else return blank (← s.duration)) = .ok chain) :
    g.Takes inputs channel s label chain := by
  rcases hw : s.winner? channel with _ | c
  · simp only [hw, Option.bind_none, bind_eq_ok] at h
    obtain ⟨d, -, h⟩ := h
    obtain rfl := Except.ok.inj h
    exact ⟨(hblank d).2, Or.inl ⟨(hblank d).1, by simp [hw]⟩⟩
  · obtain ⟨m, hm, honline⟩ := hs.online channel c hw
    have hmedia := mediaFor?_eq_some.2 ⟨hm, honline⟩
    simp only [hw, Option.bind_some, hmedia, Option.map_some] at h
    split at h
    · next hstream =>
        obtain ⟨hinputs, houtputs⟩ := hplayed c m chain h
        exact ⟨houtputs, Or.inr ⟨c, m, hw, hm, hstream, hinputs⟩⟩
    · next hstream =>
        simp only [bind_eq_ok] at h
        obtain ⟨d, -, h⟩ := h
        obtain rfl := Except.ok.inj h
        exact ⟨(hblank d).2,
          Or.inl ⟨(hblank d).1, hasStream_eq_false hw hm hstream⟩⟩

theorem takes_of_videoChain {label : String} {chain : Chain} (hs : g.Keeps s)
    (h : g.videoChain inputs s label = .ok chain) :
    g.Takes inputs .video s label chain :=
  takes_of_chain (fun c m => g.picture inputs s c m label) hs
    (fun _ _ _ => pads_of_picture) (fun _ => ⟨rfl, rfl⟩) h

theorem takes_of_audioChain {label : String} {chain : Chain} (hs : g.Keeps s)
    (h : g.audioChain inputs s label = .ok chain) :
    g.Takes inputs .audio s label chain :=
  takes_of_chain (fun c m => g.sound inputs s c m label) hs
    (fun _ _ _ => pads_of_sound) (fun _ => ⟨rfl, rfl⟩) h

/-- The chains that are built for the kept segments, in their order. -/
theorem segmentChains_spec {place : Nat}
    {built : List (Nat × Segment × Chain × Chain)}
    (h : g.segmentChains inputs place segments = .ok built) :
    List.Forall₂ (fun k b => (b.1 = k.2 ∧ b.2.1 = k.1) ∧
        g.Takes inputs .video k.1 (Channel.video.label k.2) b.2.2.1 ∧
        g.Takes inputs .audio k.1 (Channel.audio.label k.2) b.2.2.2)
      (g.keptFrom place segments) built := by
  induction segments generalizing place built with
  | nil =>
      obtain rfl : [] = built := Except.ok.inj h
      exact .nil
  | cons s rest ih =>
      simp only [segmentChains, bind_eq_ok] at h
      obtain ⟨keeps, hkeeps, h⟩ := h
      rw [keptFrom_cons]
      cases keeps with
      | false =>
          rw [if_neg fun hs => by simp [keeps_iff.2 hs] at hkeeps]
          exact ih h
      | true =>
          have hs := keeps_iff.1 hkeeps
          simp only [↓reduceIte, bind_eq_ok] at h
          obtain ⟨video, hvideo, audio, haudio, later, hlater, h⟩ := h
          obtain rfl := Except.ok.inj h
          rw [if_pos hs]
          exact .cons ⟨⟨rfl, rfl⟩, takes_of_videoChain hs hvideo,
            takes_of_audioChain hs haudio⟩ (ih hlater)

/-- What a graph is made of. -/
theorem plan_cases {p : GraphPlan} (h : g.plan segments = .ok (some p)) :
    ∃ built, g.inputs segments = .ok p.inputs ∧
      g.segmentChains p.inputs 0 segments = .ok built ∧
      p.chains = built.flatMap (fun b => [b.2.2.1, b.2.2.2]) ++
        [lastChain (built.map (·.1))] ∧
      p.warning = built.any fun b => g.audioGuessed b.2.1 := by
  simp only [plan, bind_eq_ok] at h
  obtain ⟨inputs, hinputs, h⟩ := h
  split at h
  · simp [pure, Except.pure] at h
  · simp only [bind_eq_ok] at h
    obtain ⟨built, hbuilt, h⟩ := h
    split at h
    · simp [pure, Except.pure] at h
    · obtain rfl := Option.some.inj (Except.ok.inj h)
      exact ⟨built, hinputs, hbuilt, rfl, rfl⟩

/-- A chain of a kept segment on a channel: it gives the label of the segment, and
takes the stream of the winner from the input with its media, where there is such a
stream. -/
structure Feeds (g : GraphContext) (inputs : List Media) (channel : Channel)
    (k : Segment × Nat) (chain : Chain) : Prop where
  outputs_eq : chain.outputs = [channel.label k.2]
  inputs_cases :
    (chain.inputs = [] ∧ ∀ c ∈ k.1.winner? channel, ∀ m,
      g.sources.mediaOf? c = some m → g.hasStream channel m = false) ∨
    ∃ c m i, k.1.winner? channel = some c ∧ g.sources.mediaOf? c = some m ∧
      g.hasStream channel m = true ∧ m.id = c.mediaId ∧ inputs[i]? = some m ∧
      chain.inputs = [channel.pad i]

/-- The pad of collected media is that of the input where they are. -/
theorem Collects.exists_pad {ids : List String} (h : g.Collects inputs ids)
    (hm : g.sources.mediaOf? c = some m) (hid : c.mediaId ∈ ids)
    (channel : Channel) :
    ∃ i, inputs[i]? = some m ∧
      sourcePad inputs m channel.letter = channel.pad i := by
  rw [← List.mem_eraseDups, ← h.ids_eq, List.mem_map] at hid
  obtain ⟨m', hm', hmid⟩ := hid
  rw [← id_eq_of_mediaOf? hm] at hmid
  have hlt : inputs.findIdx (·.id == m.id) < inputs.length :=
    List.findIdx_lt_length_of_exists ⟨m', hm', beq_iff_eq.2 hmid⟩
  refine ⟨inputs.findIdx (·.id == m.id), ?_, by rw [sourcePad, Channel.pad]⟩
  rw [List.getElem?_eq_getElem hlt]
  have hfound : inputs[inputs.findIdx (·.id == m.id)].id = m.id :=
    beq_iff_eq.1 (List.findIdx_getElem (w := hlt))
  have honline := (h.online _ (List.getElem_mem hlt)).1
  have hself : findMedia? g.sources.media m.id = some m := by
    rw [id_eq_of_mediaOf? hm]
    exact hm
  rw [hfound] at honline
  exact honline.symm.trans hself

theorem Collects.feeds {ids : List String} {channel : Channel} {k : Segment × Nat}
    {chain : Chain} (h : g.Collects inputs ids)
    (hids : ∀ c ∈ k.1.winner? channel, c.mediaId ∈ ids)
    (htakes : g.Takes inputs channel k.1 (channel.label k.2) chain) :
    g.Feeds inputs channel k chain := by
  refine ⟨htakes.outputs_eq, htakes.inputs_cases.imp_right ?_⟩
  rintro ⟨c, m, hw, hm, hstream, hinputs⟩
  obtain ⟨i, hi, hpad⟩ := h.exists_pad hm (hids c hw) channel
  exact ⟨c, m, i, hw, hm, hstream, id_eq_of_mediaOf? hm, hi, hpad ▸ hinputs⟩

/-- The labels of kept segments: those of each segment, the video one first. -/
def labels (kept : List (Segment × Nat)) : List String :=
  kept.flatMap fun k => [Channel.video.label k.2, Channel.audio.label k.2]

/-- What a graph is for some kept segments: a chain on each channel for each of
them in order, and a last chain that takes all that they give. -/
structure WellFormed (g : GraphContext) (kept : List (Segment × Nat))
    (p : GraphPlan) : Prop where
  chains_eq : ∃ pairs : List (Chain × Chain),
    List.Forall₂ (fun k c => g.Feeds p.inputs .video k c.1 ∧
      g.Feeds p.inputs .audio k c.2) kept pairs ∧
    p.chains = pairs.flatMap (fun c => [c.1, c.2]) ++
      [{ inputs := labels kept, stages := [.concat (.int kept.length) 1 1]
         outputs := [videoOutput, audioOutput] }]
  outputs_nodup : (p.chains.flatMap Chain.outputs).Nodup
  /-- Each label of a segment is taken exactly once. -/
  count_eq : ∀ l ∈ labels kept, (p.chains.flatMap Chain.inputs).count l = 1
  inputs_eq : p.inputs.map Media.id = (keptIds kept).eraseDups
  inputs_nodup : (p.inputs.map Media.id).Nodup
  inputs_online : ∀ m ∈ p.inputs, findMedia? g.sources.media m.id = some m ∧
    m.offline = false

theorem snd_keptFrom_nodup (place : Nat) (segments : List Segment) :
    ((g.keptFrom place segments).map Prod.snd).Nodup := by
  have hsub : ((g.keptFrom place segments).map Prod.snd).Sublist
      ((segments.zipIdx place).map Prod.snd) := List.filter_sublist.map _
  rw [List.zipIdx_map_snd] at hsub
  exact hsub.nodup (List.nodup_range' 1)

/-- Segments of different places give different labels. -/
theorem labels_nodup {kept : List (Segment × Nat)}
    (h : (kept.map Prod.snd).Nodup) : (labels kept).Nodup := by
  rw [labels, List.nodup_flatMap]
  constructor
  · intro k _
    simp [Channel.label_inj]
  · rw [List.Nodup, List.pairwise_map] at h
    refine h.imp ?_
    intro k k' hne
    simp [Function.onFun, Channel.label_inj, hne.symm]

theorem mem_labels {kept : List (Segment × Nat)} {l : String} (h : l ∈ labels kept) :
    ∃ (channel : Channel) (i : Nat), l = channel.label i := by
  obtain ⟨k, -, hl⟩ := List.mem_flatMap.1 h
  simp only [List.mem_cons, List.not_mem_nil, or_false] at hl
  rcases hl with rfl | rfl
  · exact ⟨.video, k.2, rfl⟩
  · exact ⟨.audio, k.2, rfl⟩

/-- The chains of the segments give the labels, and take from inputs only. -/
theorem pads_of_feeds {kept : List (Segment × Nat)} {pairs : List (Chain × Chain)}
    (h : List.Forall₂ (fun k c => g.Feeds inputs .video k c.1 ∧
      g.Feeds inputs .audio k c.2) kept pairs) :
    (pairs.flatMap fun c => [c.1, c.2]).flatMap Chain.outputs = labels kept ∧
      ∀ l ∈ (pairs.flatMap fun c => [c.1, c.2]).flatMap Chain.inputs,
        ∃ (channel : Channel) (i : Nat), l = channel.pad i := by
  have hpads : ∀ {channel k chain}, g.Feeds inputs channel k chain →
      ∀ l ∈ chain.inputs, ∃ (channel : Channel) (i : Nat), l = channel.pad i := by
    intro channel k chain hfeeds l hl
    rcases hfeeds.inputs_cases with ⟨hnil, -⟩ | ⟨c, m, i, -, -, -, -, -, hpad⟩
    · simp [hnil] at hl
    · rw [hpad, List.mem_singleton] at hl
      exact ⟨channel, i, hl⟩
  induction h with
  | nil => exact ⟨rfl, by simp⟩
  | @cons k c kept pairs hkc _ ih =>
      obtain ⟨hvideo, haudio⟩ := hkc
      constructor
      · simp only [List.flatMap_cons, List.cons_append, List.nil_append, labels,
          hvideo.outputs_eq, haudio.outputs_eq]
        rw [ih.1, labels]
      · intro l hl
        simp only [List.flatMap_cons, List.cons_append, List.nil_append,
          List.mem_append] at hl
        rcases hl with hl | hl | hl
        · exact hpads hvideo l hl
        · exact hpads haudio l hl
        · exact ih.2 l hl

/-- Chains that feed all channels of kept segments, and a last chain that takes
what they give, are well formed. -/
theorem WellFormed.of_feeds {kept : List (Segment × Nat)}
    {pairs : List (Chain × Chain)} {p : GraphPlan}
    (hplaces : (kept.map Prod.snd).Nodup)
    (hcollects : g.Collects p.inputs (keptIds kept))
    (hfeeds : List.Forall₂ (fun k c => g.Feeds p.inputs .video k c.1 ∧
      g.Feeds p.inputs .audio k c.2) kept pairs)
    (hchains : p.chains = pairs.flatMap (fun c => [c.1, c.2]) ++
      [{ inputs := labels kept, stages := [.concat (.int kept.length) 1 1]
         outputs := [videoOutput, audioOutput] }]) : g.WellFormed kept p := by
  obtain ⟨houtputs, hinputs⟩ := pads_of_feeds hfeeds
  refine ⟨⟨pairs, hfeeds, hchains⟩, ?_, ?_, hcollects.ids_eq, hcollects.nodup,
    hcollects.online⟩
  · have hlast : [videoOutput, audioOutput].Nodup := by decide
    rw [hchains, List.flatMap_append, houtputs, List.flatMap_singleton,
      List.nodup_append]
    refine ⟨labels_nodup hplaces, hlast, ?_⟩
    rintro l hl o ho rfl
    obtain ⟨channel, i, rfl⟩ := mem_labels hl
    have hne := channel.label_ne_output i
    simp only [List.mem_cons, List.not_mem_nil, or_false] at ho
    exact ho.elim hne.1 hne.2
  · intro l hl
    rw [hchains, List.flatMap_append, List.count_append, List.flatMap_singleton]
    have hnone : ((pairs.flatMap fun c => [c.1, c.2]).flatMap Chain.inputs).count l
        = 0 := by
      rw [List.count_eq_zero]
      intro hmem
      obtain ⟨channel, i, rfl⟩ := mem_labels hl
      obtain ⟨other, j, hpad⟩ := hinputs _ hmem
      exact Channel.label_ne_pad hpad
    rw [hnone, Nat.zero_add]
    exact List.count_eq_one_of_mem (labels_nodup hplaces) hl

theorem lastChain_eq (kept : List (Segment × Nat)) :
    lastChain (kept.map Prod.snd) =
      { inputs := labels kept, stages := [.concat (.int kept.length) 1 1]
        outputs := [videoOutput, audioOutput] } := by
  simp only [lastChain, List.flatMap_map, List.length_map]
  rfl

theorem mem_keptIds {kept : List (Segment × Nat)} {k : Segment × Nat}
    (hk : k ∈ kept) {channel : Channel} (hc : c ∈ k.1.winner? channel) :
    c.mediaId ∈ keptIds kept :=
  List.mem_flatMap.2 ⟨k, hk, List.mem_map_of_mem (mem_winners.2 ⟨channel, hc⟩)⟩

/-- The chains of kept segments take from the inputs that were collected. -/
theorem feeds_of_built {ids : List String} {kept : List (Segment × Nat)}
    {built : List (Nat × Segment × Chain × Chain)} (h : g.Collects inputs ids)
    (hids : ∀ k ∈ kept, ∀ channel, ∀ c ∈ k.1.winner? channel, c.mediaId ∈ ids)
    (hbuilt : List.Forall₂ (fun k b => (b.1 = k.2 ∧ b.2.1 = k.1) ∧
        g.Takes inputs .video k.1 (Channel.video.label k.2) b.2.2.1 ∧
        g.Takes inputs .audio k.1 (Channel.audio.label k.2) b.2.2.2) kept built) :
    built.map (·.1) = kept.map Prod.snd ∧
      List.Forall₂ (fun k c => g.Feeds inputs .video k c.1 ∧
        g.Feeds inputs .audio k c.2) kept (built.map (·.2.2)) := by
  induction hbuilt with
  | nil => exact ⟨rfl, .nil⟩
  | @cons k b kept built hkb _ ih =>
      obtain ⟨⟨hplace, -⟩, hvideo, haudio⟩ := hkb
      obtain ⟨hk, hrest⟩ := List.forall_mem_cons.1 hids
      obtain ⟨hplaces, hfeeds⟩ := ih hrest
      refine ⟨by simp only [List.map_cons, hplace, hplaces], .cons ⟨?_, ?_⟩ hfeeds⟩
      · exact h.feeds (hk .video) hvideo
      · exact h.feeds (hk .audio) haudio

/-- Every planned graph is well formed for the segments that are kept. -/
theorem plan_wellFormed {p : GraphPlan} (h : g.plan segments = .ok (some p)) :
    g.WellFormed (g.keptFrom 0 segments) p := by
  obtain ⟨built, hinputs, hbuilt, hchains, -⟩ := plan_cases h
  have hnone : g.Collects [] [] := ⟨rfl, List.nodup_nil, List.forall_mem_nil _⟩
  have hcollects : g.Collects p.inputs (keptIds (g.keptFrom 0 segments)) :=
    collects_foldlM 0 hnone hinputs
  obtain ⟨hplaces, hfeeds⟩ := feeds_of_built hcollects
    (fun k hk channel c hc => mem_keptIds hk hc) (segmentChains_spec hbuilt)
  refine .of_feeds (snd_keptFrom_nodup 0 segments) hcollects hfeeds ?_
  rw [hchains, hplaces, lastChain_eq, List.flatMap_map]

end GraphContext

/-- A film at hand, and a tape that is not. -/
def filmAndTape : GraphContext where
  sources := { media := [{ id := "film", name := "film.mp4", mimeType := "video/mp4" },
    { id := "tape", name := "tape.mp4", mimeType := "video/mp4", offline := true }] }
  settings := { deClick := .bool false }
  rule := Defaults.effective {}
  width := 1280
  height := 720

def filmPart : Clip where
  id := "first"
  mediaId := "film"
  track := 0
  start := 0
  duration := 1000

def tapePart : Clip where
  id := "second"
  mediaId := "tape"
  track := 0
  start := 1000
  duration := 1000

/-- A part of the film, a part of the tape, and a part without a winner. -/
def filmTapeAndGap : List Segment :=
  [{ start := 0, stop := 1000, video := [filmPart], audio := [filmPart] },
    { start := 1000, stop := 2000, video := [tapePart], audio := [tapePart] },
    { start := 2000, stop := 3000 }]

theorem plan_filmTapeAndGap :
    ∃ p, filmAndTape.plan filmTapeAndGap = .ok (some p) ∧
      filmAndTape.WellFormed (filmAndTape.keptFrom 0 filmTapeAndGap) p := by
  have houtputs : (filmAndTape.plan filmTapeAndGap).map (·.map fun p =>
      p.chains.map Chain.outputs) = .ok (some
        [["v0"], ["a0"], ["v2"], ["a2"], ["outv", "outa"]]) := by
    decide +kernel
  obtain ⟨p, hp, -⟩ := exists_of_map_eq houtputs
  exact ⟨p, hp, GraphContext.plan_wellFormed hp⟩

/-- A part of the film, and a part from a time that is not a number. -/
def filmAndNaN : List Segment :=
  [{ start := 0, stop := 1000, video := [filmPart], audio := [filmPart] },
    { start := .float .nan, stop := 1000 }]

/-- A duration that is not a number is not positive, but the segment is kept. -/
theorem plan_filmAndNaN :
    ∃ p, filmAndTape.plan filmAndNaN = .ok (some p) ∧
      filmAndNaN.map (fun s => s.duration.map (Number.lt 0)) =
        [.ok true, .ok false] ∧
      p.chains.map Chain.outputs =
        [["v0"], ["a0"], ["v1"], ["a1"], ["outv", "outa"]] := by
  have houtputs : (filmAndTape.plan filmAndNaN).map (·.map fun p =>
      p.chains.map Chain.outputs) = .ok (some
        [["v0"], ["a0"], ["v1"], ["a1"], ["outv", "outa"]]) := by
    decide +kernel
  obtain ⟨p, hp, hchains⟩ := exists_of_map_eq houtputs
  exact ⟨p, hp, by decide +kernel, hchains⟩

end Montage
