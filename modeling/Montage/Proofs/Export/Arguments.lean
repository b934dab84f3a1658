import Montage.Export.Preset
import Montage.Proofs.Export.Graph
import Montage.Proofs.Export.GraphText
import Montage.Proofs.Export.Writable
import Montage.Proofs.Text.Misread

/-!
Commands are split into the arguments they were made for.

Every piece of a command is read as one argument: words of the program and of presets, and numbers,
stand for themselves, the graph and the names of inputs stand in double quotes, the script of a
copy in single quotes, and the name of the output is quoted where it has to be.
-/

namespace Montage

open Text

/-- A piece of a command is read as a word. -/
def WordOf (piece word : String) : Prop := ReadsAs piece.toList word.toList

/-- A text that is a word of a command as it stands. -/
def IsBareWord (s : String) : Prop := s.toList ≠ [] ∧ MadeOf isBare s.toList

instance (s : String) : Decidable (IsBareWord s) :=
  inferInstanceAs (Decidable (s.toList ≠ [] ∧ MadeOf isBare s.toList))

section Pieces

theorem IsBareWord.wordOf {s : String} (h : IsBareWord s) : WordOf s s :=
  readsAs_of_bare h.1 h.2

theorem isBare_of_isNumeral {c : Char} (h : isNumeral c = true) : isBare c = true :=
  kind_of_isNumeral (by decide) h

theorem wordOf_singleQuoted (s : String) :
    WordOf ("'" ++ String.ofList (closeSingleQuotes s.toList) ++ "'") s := by
  simp only [WordOf, String.toList_append, String.toList_ofList]
  exact readsAs_singleQuoted s.toList

theorem wordOf_shellWord (s : String) : WordOf (String.ofList (shellWord s.toList)) s := by
  rw [WordOf, String.toList_ofList]
  exact readsAs_shellWord s.toList

theorem wordOf_doubleQuoted {s : String} (h : keepsBackslashes s.toList = true) :
    WordOf (doubleQuoted (String.ofList (escapeDoubleQuotes s.toList))) s := by
  simp only [WordOf, doubleQuoted, String.toList_append, String.toList_ofList]
  exact readsAs_doubleQuoted h

/-- A text without double quotes and backslashes needs no escapes. -/
theorem wordOf_unescaped {s : String} (h : MadeOf isUnescaped s.toList) :
    WordOf (doubleQuoted s) s := by
  have hword := wordOf_doubleQuoted (keepsBackslashes_of_unescaped h)
  rwa [escapeDoubleQuotes_of_unescaped h, String.ofList_toList] at hword

/-- A command is split into the words that its pieces are read as. -/
theorem splitWords_of_pieces {pieces words : List String}
    (h : List.Forall₂ WordOf pieces words) :
    splitWords (" ".intercalate pieces).toList = some (words.map String.toList) := by
  have hpieces : List.Forall₂ ReadsAs (pieces.map String.toList) (words.map String.toList) := by
    rw [List.forall₂_map_left_iff, List.forall₂_map_right_iff]
    exact h
  rw [String.toList_intercalate]
  exact splitWords_intercalate hpieces

theorem forall₂_wordOf {words : List String} (h : ∀ s ∈ words, IsBareWord s) :
    List.Forall₂ WordOf words words :=
  List.forall₂_same.2 fun s hs => (h s hs).wordOf

/-- A piece of a command is made for a word. -/
def PieceFor (piece word : String) : Prop := MadeFor piece.toList word.toList

theorem IsBareWord.pieceFor {s : String} (h : IsBareWord s) : PieceFor s s :=
  .of_bare h.1 h.2

theorem pieceFor_doubleQuoted (s : String) :
    PieceFor (doubleQuoted (String.ofList (escapeDoubleQuotes s.toList))) s := by
  simp only [PieceFor, doubleQuoted, String.toList_append, String.toList_ofList]
  exact madeFor_doubleQuoted s.toList

theorem pieceFor_unescaped {s : String} (h : MadeOf isUnescaped s.toList) :
    PieceFor (doubleQuoted s) s := by
  have hpiece := pieceFor_doubleQuoted s
  rwa [escapeDoubleQuotes_of_unescaped h, String.ofList_toList] at hpiece

/-- A name in double quotes is read as it is just when its backslashes are kept. -/
theorem wordOf_inputWord_iff (m : Media) :
    WordOf (inputWord m) m.name ↔ keepsBackslashes m.name.toList = true := by
  simp only [WordOf, inputWord, doubleQuoted, String.toList_append, String.toList_ofList]
  exact readsAs_doubleQuoted_iff

/-- A command that ends with a name is split into the words that its pieces are made for just when
each piece is read as its word. -/
theorem splitWords_pieces_iff {parts : List (String × String)} {name : String}
    (h : ∀ x ∈ parts, PieceFor x.1 x.2) :
    splitWords (" ".intercalate
          (parts.map Prod.fst ++ [String.ofList (shellWord name.toList)])).toList =
        some ((parts.map Prod.snd ++ [name]).map String.toList) ↔
      ∀ x ∈ parts, WordOf x.1 x.2 := by
  have hmade : List.Forall₂ MadeFor (parts.map fun x => x.1.toList)
      (parts.map fun x => x.2.toList) := by
    rw [List.forall₂_map_left_iff, List.forall₂_map_right_iff, List.forall₂_same]
    exact h
  have hiff := splitWords_intercalate_iff hmade name.toList
  rw [List.forall₂_map_left_iff, List.forall₂_map_right_iff, List.forall₂_same] at hiff
  rw [String.toList_intercalate]
  simp only [List.map_append, List.map_map, List.map_cons, List.map_nil, String.toList_ofList]
  exact hiff

end Pieces

namespace Words

/-- All words are texts that stand for themselves. -/
def AllBare (words : Words) : Prop := ∀ d ∈ words, ∃ s, d = .text s ∧ IsBareWord s

variable {words more : Words}

theorem AllBare.append (h : AllBare words) (hmore : AllBare more) : AllBare (words ++ more) :=
  List.forall_mem_append.2 ⟨h, hmore⟩

theorem allBare_ofTexts {texts : List String} (h : ∀ s ∈ texts, IsBareWord s) :
    AllBare (.ofTexts texts) := by
  intro d hd
  obtain ⟨s, hs, rfl⟩ := List.mem_map.1 hd
  exact ⟨s, rfl, h s hs⟩

/-- A flag with a bare value, or with one that is left out. -/
theorem allBare_flagFor {flag value : String} (hflag : IsBareWord flag)
    (hvalue : value = "" ∨ IsBareWord value) : AllBare (flagFor flag (.text value)) := by
  rw [flagFor]
  split
  · exact List.forall_mem_nil _
  · next hset =>
      have hne : value ≠ "" := fun hempty => hset (by rw [hempty]; rfl)
      exact allBare_ofTexts (List.forall_mem_cons.2
        ⟨hflag, List.forall_mem_singleton.2 (hvalue.resolve_left hne)⟩)

/-- The texts of the words. -/
def display (words : Words) : List String := words.map Document.display

theorem AllBare.isBareWord (h : AllBare words) : ∀ s ∈ words.display, IsBareWord s := by
  intro s hs
  obtain ⟨d, hd, rfl⟩ := List.mem_map.1 hs
  obtain ⟨s, rfl, hbare⟩ := h d hd
  exact hbare

theorem AllBare.eq_ofTexts (h : AllBare words) : words = .ofTexts words.display := by
  induction words with
  | nil => rfl
  | cons d rest ih =>
      obtain ⟨⟨s, rfl, -⟩, hrest⟩ := List.forall_mem_cons.1 h
      exact congrArg (.text s :: ·) (ih hrest)

theorem ofTexts_append (texts later : List String) :
    ofTexts (texts ++ later) = ofTexts texts ++ ofTexts later :=
  List.map_append

theorem texts_ofTexts (texts : List String) (place : Nat) :
    (ofTexts texts).texts place = .ok texts := by
  induction texts generalizing place with
  | nil => rfl
  | cons s rest ih =>
      have hrest := ih (place + 1)
      simp only [ofTexts, List.map_cons, Words.texts] at hrest ⊢
      rw [hrest]
      rfl

theorem join_ofTexts (texts : List String) :
    (ofTexts texts).join = .ok (" ".intercalate texts) := by
  rw [join, texts_ofTexts]
  rfl

end Words

open Words

/-- The words of a command that renders a graph. -/
def renderWords (inputs : List Media) (graph : String) (flags : Words)
    (last : List String) : List String :=
  ["ffmpeg"] ++ inputs.flatMap (fun m => ["-i", m.name])
    ++ ["-filter_complex", graph, "-map", "[outv]", "-map", "[outa]"] ++ flags.display ++ last

/-- The words of a command that copies windows, its script being one of them. -/
def copyWords (script : String) (last : List String) : List String :=
  ["printf", "%b", script, "|", "ffmpeg", "-f", "concat", "-safe", "0", "-protocol_whitelist",
    "file,pipe,fd,crypto,data", "-i", "-", "-c", "copy"] ++ last

/-- A flag with a value that some preset gives. -/
theorem allBare_presetFlag (flag : String) (hflag : IsBareWord flag) {field : Preset → String}
    (hfield : ∀ p ∈ Preset.all, field p = "" ∨ IsBareWord (field p)) {value : Document}
    (hvalue : ∃ p ∈ Preset.all, value = .text (field p)) : AllBare (flagFor flag value) := by
  obtain ⟨p, hp, rfl⟩ := hvalue
  exact allBare_flagFor hflag (hfield p hp)

namespace ExportSettings

/-- The codecs, the bitrates and the preset of the encoder are those of export presets. -/
structure TakesPresetWords (s : ExportSettings) : Prop where
  videoCodec : ∃ p ∈ Preset.all, s.videoCodec = .text p.videoCodec
  videoBitrate : ∃ p ∈ Preset.all, s.videoBitrate = .text p.videoBitrate
  preset : ∃ p ∈ Preset.all, s.preset = .text p.preset
  audioCodec : ∃ p ∈ Preset.all, s.audioCodec = .text p.audioCodec
  audioBitrate : ∃ p ∈ Preset.all, s.audioBitrate = .text p.audioBitrate

/-- The format is a text, and the name of the output is one where it is set. -/
structure NamesOutput (s : ExportSettings) : Prop where
  format : s.format.IsText
  outputFile : s.outputFile = .null ∨ s.outputFile.IsText

variable {s : ExportSettings}

theorem yields_bareWord (d : Document) : Yields IsBareWord d.parameter := by
  refine .bind .any fun x _ => .ok ⟨parameterOf_ne_nil x, ?_⟩
  exact (madeOf_parameterOf x).imp fun _ => isBare_of_isNumeral

section Flags

variable (h : s.TakesPresetWords)
include h

theorem TakesPresetWords.yields_videoFlags : Yields AllBare s.videoFlags := by
  have hcodec := allBare_presetFlag "-c:v" (by decide) (by decide) h.videoCodec
  have hbitrate := allBare_presetFlag "-b:v" (by decide) (by decide) h.videoBitrate
  have hpreset := allBare_presetFlag "-preset" (by decide) (by decide) h.preset
  have hdone : ∀ {quality : Words}, AllBare quality → Yields AllBare (do
      return flagFor "-c:v" s.videoCodec ++ quality
        ++ .ofTexts ["-r", ← s.frameRate.parameter]) := by
    intro quality hquality
    refine .bind (yields_bareWord s.frameRate) fun rate hrate => .ok ?_
    exact (hcodec.append hquality).append (allBare_ofTexts
      (List.forall_mem_cons.2 ⟨by decide, List.forall_mem_singleton.2 hrate⟩))
  rw [videoFlags]
  refine .ite (hdone hbitrate) (.bind .any fun uses _ => .ite ?_ (hdone (List.forall_mem_nil _)))
  refine .bind (yields_bareWord s.rateFactor) fun factor hfactor => hdone ?_
  exact (allBare_ofTexts (List.forall_mem_cons.2
    ⟨by decide, List.forall_mem_singleton.2 hfactor⟩)).append hpreset

theorem TakesPresetWords.yields_audioFlags : Yields AllBare s.audioFlags := by
  have hcodec := allBare_presetFlag "-c:a" (by decide) (by decide) h.audioCodec
  have hbitrate := allBare_presetFlag "-b:a" (by decide) (by decide) h.audioBitrate
  refine .bind (yields_bareWord s.soundRate) fun rate hrate => .ok ?_
  exact (hcodec.append hbitrate).append (allBare_ofTexts
    (List.forall_mem_cons.2 ⟨by decide, List.forall_mem_singleton.2 hrate⟩))

end Flags

/-- The last arguments: what the container calls for, and the name of the output. -/
def outputArguments (s : ExportSettings) : Except Fault (List String) := do
  return (← containerFlags (s.format.orElse (.text "mp4"))) ++ ["-y", s.outputName]

theorem NamesOutput.isText_output (h : s.NamesOutput) : s.output.IsText := by
  rw [output]
  rcases h.outputFile with hnull | htext
  · rw [hnull]
    exact Document.isText_text _
  · exact htext.orElse (Document.isText_text _)

theorem yields_containerFlags (format : Document) :
    Yields (fun flags => ∀ s ∈ flags, IsBareWord s) (containerFlags format) := by
  unfold containerFlags
  split
  · refine .ok ?_
    split
    · decide
    · exact List.forall_mem_nil _
  · exact .error _

/-- The last pieces of a command are there: bare words and the name of the output, which is quoted
where it has to be. -/
theorem NamesOutput.exists_outputFlags (h : s.NamesOutput) :
    ∃ front name, (∀ word ∈ front, IsBareWord word) ∧
      s.outputFlags = .ok (front ++ [String.ofList (shellWord name.toList)]) ∧
      s.outputArguments = .ok (front ++ [name]) := by
  obtain ⟨name, hname⟩ := h.isText_output
  obtain ⟨container, hcontainer⟩ :=
    exists_containerFlags (h.format.orElse (Document.isText_text "mp4"))
  refine ⟨container ++ ["-y"], name, ?_, ?_, ?_⟩
  · exact List.forall_mem_append.2 ⟨yields_containerFlags _ _ hcontainer, by decide⟩
  · rw [outputFlags, hcontainer, outputWord, hname, List.append_assoc]
    rfl
  · rw [outputArguments, hcontainer, outputName, hname, List.append_assoc]
    rfl

/-- The arguments that a rendering command is made for. -/
def renderArguments (s : ExportSettings) (p : GraphPlan) : Except Fault (List String) := do
  let graph ← p.render
  let flags := (← s.videoFlags) ++ (← s.audioFlags)
  return renderWords p.inputs graph flags (← s.outputArguments)

/-- The arguments that a copying command is made for, the script among them. -/
def copyArguments (s : ExportSettings) (p : CopyPlan) : Except Fault (List String) := do
  return copyWords (← p.payload) (← s.outputArguments)

end ExportSettings

section GraphChars

variable {c : Char}

theorem isUnescaped_of_isGraphChar (h : isGraphChar c = true) : isUnescaped c = true := by
  have hquote : c ≠ '"' := ne_of_kind h (by decide)
  have hslash : c ≠ '\\' := ne_of_kind h (by decide)
  simp [isUnescaped, hquote, hslash]

theorem isGapOrBare_of_isGraphChar (h : isGraphChar c = true) :
    (isWordGap c || isBare c) = true := by
  have hquote : c ≠ '"' := ne_of_kind h (by decide)
  have hslash : c ≠ '\\' := ne_of_kind h (by decide)
  have hsingle : c ≠ '\'' := ne_of_kind h (by decide)
  cases hgap : isWordGap c <;> simp [isBare, hgap, hquote, hslash, hsingle]

end GraphChars

variable {s : ExportSettings}

/-- Words that are pieces of a command as they stand. -/
def sameParts (words : List String) : List (String × String) := words.map fun s => (s, s)

/-- The pieces of a command that renders a graph up to the name of the output, each with the word
that it is made for. -/
def renderParts (inputs : List Media) (graph : String) (flags : Words) (front : List String) :
    List (String × String) :=
  sameParts ["ffmpeg"] ++ inputs.flatMap (fun m => [("-i", "-i"), (inputWord m, m.name)])
    ++ [("-filter_complex", "-filter_complex"), (doubleQuoted graph, graph),
      ("-map", "-map"), (doubleQuoted ("[" ++ videoOutput ++ "]"), "[outv]"),
      ("-map", "-map"), (doubleQuoted ("[" ++ audioOutput ++ "]"), "[outa]")]
    ++ sameParts flags.display ++ sameParts front

section Parts

variable {inputs : List Media} {graph : String} {flags : Words} {front : List String}

theorem map_fst_sameParts (words : List String) : (sameParts words).map Prod.fst = words := by
  rw [sameParts, List.map_map]
  exact List.map_id words

theorem map_snd_sameParts (words : List String) : (sameParts words).map Prod.snd = words := by
  rw [sameParts, List.map_map]
  exact List.map_id words

theorem renderWords_eq (name : String) : renderWords inputs graph flags (front ++ [name]) =
    (renderParts inputs graph flags front).map Prod.snd ++ [name] := by
  simp [renderWords, renderParts, map_snd_sameParts, List.map_flatMap]

theorem join_renderParts {video audio : Words} (hbare : AllBare (video ++ audio)) (last : String) :
    Words.join (.ofTexts (["ffmpeg"] ++ inputs.flatMap (fun m => ["-i", inputWord m])
        ++ ["-filter_complex", doubleQuoted graph,
          "-map", doubleQuoted ("[" ++ videoOutput ++ "]"),
          "-map", doubleQuoted ("[" ++ audioOutput ++ "]")])
      ++ video ++ audio ++ .ofTexts (front ++ [last])) =
      .ok (" ".intercalate
        ((renderParts inputs graph (video ++ audio) front).map Prod.fst ++ [last])) := by
  rw [List.append_assoc (Words.ofTexts _), hbare.eq_ofTexts, ← ofTexts_append, ← ofTexts_append,
    join_ofTexts, ← hbare.eq_ofTexts]
  simp [renderParts, map_fst_sameParts, List.map_flatMap]

/-- What holds for bare words, and for texts without escapes in double quotes, holds for all pieces
as soon as it does for the names of the inputs. -/
theorem forall_renderParts_iff {P : String → String → Prop}
    (hbare : ∀ word, IsBareWord word → P word word)
    (hquoted : ∀ word, MadeOf isUnescaped word.toList → P (doubleQuoted word) word)
    (hgraph : MadeOf isUnescaped graph.toList) (hflags : AllBare flags)
    (hfront : ∀ word ∈ front, IsBareWord word) :
    (∀ x ∈ renderParts inputs graph flags front, P x.1 x.2) ↔
      ∀ m ∈ inputs, P (inputWord m) m.name := by
  have hsame : ∀ words : List String, (∀ word ∈ words, IsBareWord word) →
      ∀ x ∈ sameParts words, P x.1 x.2 := by
    intro words hwords x hx
    obtain ⟨word, hword, rfl⟩ := List.mem_map.1 hx
    exact hbare word (hwords word hword)
  have hfirst := hsame ["ffmpeg"] (by decide)
  have hmiddle : ∀ x ∈ [("-filter_complex", "-filter_complex"), (doubleQuoted graph, graph),
      ("-map", "-map"), (doubleQuoted ("[" ++ videoOutput ++ "]"), "[outv]"),
      ("-map", "-map"), (doubleQuoted ("[" ++ audioOutput ++ "]"), "[outa]")], P x.1 x.2 := by
    have hmap : P "-map" "-map" := hbare _ (by decide)
    simp only [List.forall_mem_cons]
    exact ⟨hbare _ (by decide), hquoted _ hgraph, hmap, hquoted "[outv]" (by decide), hmap,
      hquoted "[outa]" (by decide), List.forall_mem_nil _⟩
  constructor
  · intro h m hm
    apply h (inputWord m, m.name)
    rw [renderParts, List.append_assoc, List.append_assoc, List.append_assoc]
    apply List.mem_append_right
    apply List.mem_append_left
    exact List.mem_flatMap.2 ⟨m, hm, List.mem_cons_of_mem _ List.mem_cons_self⟩
  · intro h
    have hinputs : ∀ x ∈ inputs.flatMap fun m => [("-i", "-i"), (inputWord m, m.name)],
        P x.1 x.2 := by
      intro x hx
      obtain ⟨m, hm, hx⟩ := List.mem_flatMap.1 hx
      simp only [List.mem_cons, List.not_mem_nil, or_false] at hx
      rcases hx with rfl | rfl
      · exact hbare "-i" (by decide)
      · exact h m hm
    simp only [renderParts, List.forall_mem_append]
    exact ⟨⟨⟨⟨hfirst, hinputs⟩, hmiddle⟩, hsame _ hflags.isBareWord⟩, hsame _ hfront⟩

end Parts

/-- The command that renders a graph is split into its arguments just when in each name every
backslash has a character after it that is no backslash and no double quote.  It is not written at
all just when one of its numbers is not. -/
theorem splitWords_renderCommand {g : GraphContext} {segments : List Segment} {p : GraphPlan}
    (hplan : g.plan segments = .ok (some p)) (media : List Media)
    (hwords : s.TakesPresetWords) (hout : s.NamesOutput) :
    Parallel
      (fun command words => splitWords command.toList = some (words.map String.toList) ↔
        ∀ m ∈ media, keepsBackslashes m.name.toList = true)
      (renderCommand s { p with inputs := media })
      (s.renderArguments { p with inputs := media }) := by
  obtain ⟨front, name, hfront, hlast, harguments⟩ := hout.exists_outputFlags
  refine .bind fun graph hgraph => .bind fun video hvideo => .bind fun audio haudio => ?_
  rw [hlast, harguments]
  have hflags : AllBare (video ++ audio) :=
    (hwords.yields_videoFlags video hvideo).append (hwords.yields_audioFlags audio haudio)
  have hchars : MadeOf isUnescaped graph.toList :=
    (g.madeOf_render hplan hgraph).imp fun _ => isUnescaped_of_isGraphChar
  have hpieces : ∀ x ∈ renderParts media graph (video ++ audio) front, PieceFor x.1 x.2 := by
    rw [forall_renderParts_iff (fun _ => IsBareWord.pieceFor) (fun _ => pieceFor_unescaped) hchars
      hflags hfront]
    exact fun m _ => pieceFor_doubleQuoted m.name
  have hread : (∀ x ∈ renderParts media graph (video ++ audio) front, WordOf x.1 x.2) ↔
      ∀ m ∈ media, WordOf (inputWord m) m.name :=
    forall_renderParts_iff (fun _ => IsBareWord.wordOf) (fun _ => wordOf_unescaped) hchars hflags
      hfront
  have hcommand := @join_renderParts media graph front video audio hflags
    (String.ofList (shellWord name.toList))
  change Parallel _ (Words.join _)
    (.ok (renderWords media graph (video ++ audio) (front ++ [name])))
  rw [hcommand]
  apply Parallel.ok
  rw [renderWords_eq, splitWords_pieces_iff hpieces, hread]
  simp only [wordOf_inputWord_iff]

/-- A part of the film. -/
def filmOpening : List Segment :=
  [{ start := 0, stop := 1000, video := [filmPart], audio := [filmPart] }]

/-- An export to a name with a blank. -/
def namedExport : ExportSettings := { outputFile := .text "my export.mp4" }

theorem takesPresetWords_namedExport : namedExport.TakesPresetWords :=
  ⟨⟨_, List.mem_cons_self, rfl⟩, ⟨_, List.mem_cons_self, rfl⟩, ⟨_, List.mem_cons_self, rfl⟩,
    ⟨_, List.mem_cons_self, rfl⟩, ⟨_, List.mem_cons_self, rfl⟩⟩

theorem namesOutput_namedExport : namedExport.NamesOutput :=
  ⟨Document.isText_text _, Or.inr (Document.isText_text _)⟩

/-- A name with blanks and quotes, and one with a backslash before a letter. -/
def quotedNames : List Media :=
  [{ id := "film", name := "it's \"my\" film.mp4" }, { id := "tape", name := "tapes\\first.mp4" }]

/-- The words of the command that renders the film for these names. -/
def quotedWords (graph : String) : List String :=
  ["ffmpeg", "-i", "it's \"my\" film.mp4", "-i", "tapes\\first.mp4", "-filter_complex", graph,
    "-map", "[outv]", "-map", "[outa]", "-c:v", "libx264", "-crf", "23", "-preset", "medium",
    "-r", "30", "-c:a", "aac", "-b:a", "192k", "-ar", "44100", "-movflags", "+faststart", "-y",
    "my export.mp4"]

theorem splitWords_quotedNames :
    ∃ p graph command, filmAndTape.plan filmOpening = .ok (some p) ∧ p.render = .ok graph ∧
      renderCommand namedExport { p with inputs := quotedNames } = .ok command ∧
      splitWords command.toList = some ((quotedWords graph).map String.toList) := by
  have hwords : (filmAndTape.plan filmOpening).map (·.map fun p =>
      p.render.toOption.any fun graph => decide ((namedExport.renderArguments
        { p with inputs := quotedNames }).toOption = some (quotedWords graph))) =
      .ok (some true) := by
    decide +kernel
  obtain ⟨p, hplan, hwords⟩ := exists_of_map_eq hwords
  obtain ⟨graph, hgraph, hwords⟩ := (Option.any_eq_true _ _).1 hwords
  rw [toOption_eq_some] at hgraph
  rw [decide_eq_true_eq, toOption_eq_some] at hwords
  have hparallel := splitWords_renderCommand hplan quotedNames takesPresetWords_namedExport
    namesOutput_namedExport
  rw [hwords] at hparallel
  generalize hwritten : renderCommand namedExport { p with inputs := quotedNames } = written
    at hparallel
  cases hparallel with
  | ok hsplit =>
      exact ⟨p, graph, _, hplan, hgraph, hwritten, hsplit.2 (by decide)⟩

/-- A name that ends with a backslash. -/
def openNames : List Media := [{ id := "film", name := "film\\" }]

/-- Where the rest of a command is not read, nor is it after a piece. -/
theorem unread_append {piece word rest : String} (hrest : Unread rest.toList)
    (h : WordOf piece word) : Unread (piece ++ rest).toList := by
  rw [String.toList_append]
  exact hrest.after h

theorem unread_append_bare {s rest : String} (hrest : Unread rest.toList)
    (h : MadeOf (fun c => isWordGap c || isBare c) s.toList) : Unread (s ++ rest).toList := by
  rw [String.toList_append]
  exact hrest.afterBare h

/-- The last flags of a command, with a quotation open before them. -/
def openFlags : String :=
  "\" -c:v libx264 -crf 23 -preset medium -r 30 -c:a aac -b:a 192k -ar 44100"
    ++ " -movflags +faststart -y 'my export.mp4'"

/-- The command for this name.  Its first quotation closes where that of the graph should open. -/
def openCommand (graph : String) : String :=
  "ffmpeg -i " ++ (inputWord { id := "film", name := "film\" -filter_complex " } ++ (graph
    ++ (doubleQuoted " -map " ++ ("[outv]" ++ (doubleQuoted " -map " ++ ("[outa]"
      ++ openFlags))))))

theorem splitWords_openNames :
    ∃ p command, filmAndTape.plan filmOpening = .ok (some p) ∧
      renderCommand namedExport { p with inputs := openNames } = .ok command ∧
      splitWords command.toList = none := by
  have hcommand : (filmAndTape.plan filmOpening).map (·.map fun p =>
      p.render.toOption.any fun graph => decide ((renderCommand namedExport
        { p with inputs := openNames }).toOption = some (openCommand graph))) =
      .ok (some true) := by
    decide +kernel
  obtain ⟨p, hplan, hcommand⟩ := exists_of_map_eq hcommand
  obtain ⟨graph, hgraph, hcommand⟩ := (Option.any_eq_true _ _).1 hcommand
  rw [toOption_eq_some] at hgraph
  rw [decide_eq_true_eq, toOption_eq_some] at hcommand
  have hgraph : MadeOf (fun c => isWordGap c || isBare c) graph.toList :=
    (filmAndTape.madeOf_render hplan hgraph).imp fun _ => isGapOrBare_of_isGraphChar
  have hmap : WordOf (doubleQuoted " -map ") " -map " := wordOf_unescaped (by decide)
  have hname : WordOf (inputWord { id := "film", name := "film\" -filter_complex " })
      "film\" -filter_complex " :=
    (wordOf_inputWord_iff _).2 (by decide)
  have hlast : Unread openFlags.toList := unread_open (by decide)
  have hopen : Unread (openCommand graph).toList :=
    unread_append_bare (unread_append (unread_append_bare (unread_append (unread_append_bare
      (unread_append (unread_append_bare hlast (by decide)) hmap) (by decide)) hmap)
      hgraph) hname) (by decide)
  exact ⟨p, openCommand graph, hplan, hcommand, hopen none⟩

theorem OnlyTooLarge.seconds (a : Number) : OnlyTooLarge a.seconds := by
  have hdiv : OnlyTooLarge (a.div (.float (Binary64.ofInt 1000))) := by
    have hthousand : (Binary64.ofInt 1000).isZero = false := by decide +kernel
    rw [Number.div_float_eq, hthousand]
    exact bind (toBinary64 a) fun _ => ok _
  exact bind hdiv fun seconds => bind (toBinary64 seconds) fun _ => ok _

namespace CopyPlan

variable (p : CopyPlan)

/-- The script is written just when both times of every window are within the range of
binary64. -/
theorem exists_payload_iff :
    (∃ script, p.payload = .ok script) ↔ ∀ w ∈ p.windows, w.start.Fits ∧ w.stop.Fits := by
  constructor
  · rintro ⟨script, hscript⟩ w hw
    obtain ⟨lines, hlines, -⟩ := bind_eq_ok.1 hscript
    obtain ⟨all, hall, -⟩ := bind_eq_ok.1 hlines
    obtain ⟨text, htext⟩ := exists_of_mapM hall w hw
    obtain ⟨start, hstart, htext⟩ := bind_eq_ok.1 htext
    obtain ⟨stop, hstop, -⟩ := bind_eq_ok.1 htext
    exact ⟨Number.exists_seconds_iff.1 ⟨start, hstart⟩, Number.exists_seconds_iff.1 ⟨stop, hstop⟩⟩
  · intro hfits
    have hlines : ∀ w ∈ p.windows,
        ∃ lines, ConcatScript.windowLines (ConcatScript.path p.media.name) w = .ok lines := by
      intro w hw
      obtain ⟨start, hstart⟩ := Number.exists_seconds (hfits w hw).1
      obtain ⟨stop, hstop⟩ := Number.exists_seconds (hfits w hw).2
      exact exists_bind hstart (exists_bind hstop ⟨_, rfl⟩)
    obtain ⟨lines, hlines⟩ := exists_mapM hlines
    have hscript : p.scriptLines = .ok lines.flatten := by
      rw [scriptLines, hlines]
      rfl
    exact exists_bind hscript ⟨_, rfl⟩

theorem onlyTooLarge_payload : OnlyTooLarge p.payload := by
  refine .bind (.bind (.mapM (fun w => ?_) p.windows) fun _ => .ok _) fun _ => .ok _
  exact .bind (.seconds w.start) fun _ => .bind (.seconds w.stop) fun _ => .ok _

end CopyPlan

/-- The pieces of a command that copies windows. -/
def copyPieces (script : String) (last : List String) : List String :=
  ["printf", "'%b'", "'" ++ String.ofList (closeSingleQuotes script.toList) ++ "'", "|", "ffmpeg",
    "-f", "concat", "-safe", "0", "-protocol_whitelist", "file,pipe,fd,crypto,data", "-i", "-",
    "-c", "copy"] ++ last

theorem forall₂_copyPieces (script : String) {last arguments : List String}
    (hlast : List.Forall₂ WordOf last arguments) :
    List.Forall₂ WordOf (copyPieces script last) (copyWords script arguments) := by
  have hprogram : WordOf "printf" "printf" := IsBareWord.wordOf (by decide)
  have hrest : List.Forall₂ WordOf ["|", "ffmpeg", "-f", "concat", "-safe", "0",
      "-protocol_whitelist", "file,pipe,fd,crypto,data", "-i", "-", "-c", "copy"]
      ["|", "ffmpeg", "-f", "concat", "-safe", "0",
      "-protocol_whitelist", "file,pipe,fd,crypto,data", "-i", "-", "-c", "copy"] :=
    forall₂_wordOf (by decide)
  exact .cons hprogram (.cons (wordOf_singleQuoted "%b")
    (.cons (wordOf_singleQuoted script) (List.rel_append hrest hlast)))

/-- The command that copies windows is written just when both times of every window are within
the range of binary64, which is all that can go wrong, and is then split into its arguments, the
script being one of them. -/
theorem splitWords_copyCommand (hout : s.NamesOutput) (p : CopyPlan) :
    ((∃ command, copyCommand s p = .ok command) ↔
        ∀ w ∈ p.windows, w.start.Fits ∧ w.stop.Fits) ∧
      OnlyTooLarge (copyCommand s p) ∧
      (copyCommand s p).map (fun command => splitWords command.toList) =
        (s.copyArguments p).map fun words => some (words.map String.toList) := by
  obtain ⟨front, name, hfront, hlast, harguments⟩ := hout.exists_outputFlags
  have hwordOf : List.Forall₂ WordOf (front ++ [String.ofList (shellWord name.toList)])
      (front ++ [name]) :=
    List.rel_append (forall₂_wordOf hfront) (.cons (wordOf_shellWord name) .nil)
  have hcommand : copyCommand s p =
      p.payload.map fun script => " ".intercalate (copyPieces script
        (front ++ [String.ofList (shellWord name.toList)])) := by
    rw [copyCommand, hlast]
    cases p.payload <;> rfl
  have hwords : s.copyArguments p =
      p.payload.map fun script => copyWords script (front ++ [name]) := by
    rw [ExportSettings.copyArguments, harguments]
    cases p.payload <;> rfl
  rw [← p.exists_payload_iff, hcommand, hwords]
  cases hscript : p.payload with
  | error e =>
      have hlarge : e = .integerTooLarge := p.onlyTooLarge_payload e hscript
      subst hlarge
      simp [Except.map, OnlyTooLarge]
  | ok script =>
      refine ⟨iff_of_true ⟨_, rfl⟩ ⟨script, rfl⟩, .ok _, ?_⟩
      exact congrArg Except.ok (splitWords_of_pieces (forall₂_copyPieces script hwordOf))

/-- Two parts of a tape with a quote, a percent sign and a backslash in its name. -/
def quotedCopy : CopyPlan where
  media := { id := "tape", name := "it's 5% \\ done.mp4" }
  windows := [⟨0, 1000, 1⟩, ⟨2500, 4000, 1⟩]
  warning := false

/-- The words of the command that copies these parts. -/
def quotedCopyWords : List String :=
  ["printf", "%b", "file 'file:it\\'s 5% \\\\ done.mp4'\\ninpoint 0\\noutpoint 1\\n"
    ++ "file 'file:it\\'s 5% \\\\ done.mp4'\\ninpoint 2.5\\noutpoint 4\\n", "|", "ffmpeg",
    "-f", "concat", "-safe", "0", "-protocol_whitelist", "file,pipe,fd,crypto,data", "-i", "-",
    "-c", "copy", "-movflags", "+faststart", "-y", "my export.mp4"]

theorem splitWords_quotedCopy :
    (∃ command, copyCommand namedExport quotedCopy = .ok command) ∧
      (copyCommand namedExport quotedCopy).map (fun command => splitWords command.toList) =
        .ok (some (quotedCopyWords.map String.toList)) := by
  have hbounded : ∀ w ∈ quotedCopy.windows, w.start.Bounded 12 ∧ w.stop.Bounded 12 := by
    decide
  have hwords : (namedExport.copyArguments quotedCopy).toOption = some quotedCopyWords := by
    decide +kernel
  rw [toOption_eq_some] at hwords
  obtain ⟨hwritten, -, hsplit⟩ := splitWords_copyCommand namesOutput_namedExport quotedCopy
  constructor
  · apply hwritten.2
    intro w hw
    exact ⟨(hbounded w hw).1.fits (by decide), (hbounded w hw).2.fits (by decide)⟩
  · exact hsplit.trans (congrArg _ hwords)

/-- A part of a tape from a time beyond the range of binary64. -/
def endlessCopy : CopyPlan where
  media := { id := "tape", name := "tape.mp4" }
  windows := [⟨.int (10 ^ 400), .int (10 ^ 400 + 1000), 1⟩]
  warning := false

theorem copyCommand_endlessCopy : copyCommand namedExport endlessCopy = .error .integerTooLarge :=
  eq_error_of_map_eq
    (by decide +kernel : (copyCommand namedExport endlessCopy).map String.length = _)

end Montage
