import Mathlib.Data.List.Infix
import Montage.Proofs.Text.Words

/-!
Names that are not read back.

A reader drops the quotes that it reads and the backslashes that escape.  So what it gives is
weighed against the text that it reads: however the quotations of a command are taken apart, the
words are never heavier than the text allows, and a backslash that escapes another one is lost for
good.
-/

namespace Montage.Text

/-- Where the reader stands after a character that is no gap, and what it adds to the word. -/
def WordMode.read : WordMode → Char → WordMode × List Char
  | .bare, c =>
    if c = '\\' then (.bareEscape, [])
    else if c = '\'' then (.single, [])
    else if c = '"' then (.double, [])
    else (.bare, [c])
  | .single, c => if c = '\'' then (.bare, []) else (.single, [c])
  | .double, c =>
    if c = '"' then (.bare, []) else if c = '\\' then (.doubleEscape, []) else (.double, [c])
  | .bareEscape, c => (.bare, [c])
  | .doubleEscape, c => if c = '"' ∨ c = '\\' then (.double, [c]) else (.double, ['\\', c])

section Steps

/-- What one character of a command does. -/
theorem splitWordsFrom_cons (mode : WordMode) (word : Option (List Char)) (c : Char)
    (rest : List Char) :
    splitWordsFrom mode word (c :: rest) =
      if mode = .bare ∧ isWordGap c = true then
        (splitWordsFrom .bare none rest).map (word.toList ++ ·)
      else
        splitWordsFrom (mode.read c).1 (some (word.getD [] ++ (mode.read c).2)) rest := by
  -- A backslash begins a word only with the character after it.
  have hbare : splitWordsFrom .bareEscape (some []) rest =
      splitWordsFrom .bareEscape none rest := by
    cases rest <;> rfl
  have hdouble :
      splitWordsFrom .doubleEscape (some []) rest = splitWordsFrom .doubleEscape none rest := by
    cases rest <;> rfl
  cases mode <;> cases word <;> simp only [splitWordsFrom, WordMode.read] <;> split_ifs <;>
    simp_all

theorem WordMode.read_gap {c : Char} (h : isWordGap c = true) :
    WordMode.bare.read c = (.bare, [c]) := by
  have hne : ∀ {d : Char}, isWordGap d = false → c ≠ d := ne_of_kind h
  simp [read, hne (by decide : isWordGap '\\' = false), hne (by decide : isWordGap '\'' = false),
    hne (by decide : isWordGap '"' = false)]

variable {mode : WordMode} {words : List (List Char)}

/-- A word that has been begun is the beginning of the first word. -/
theorem exists_of_splitWordsFrom {word s : List Char}
    (h : splitWordsFrom mode (some word) s = some words) :
    ∃ rest more, words = (word ++ rest) :: more := by
  induction s generalizing mode word with
  | nil =>
      cases mode <;> simp only [splitWordsFrom, reduceCtorEq, Option.some.injEq] at h
      exact ⟨[], [], by rw [← h, List.append_nil]⟩
  | cons c tail ih =>
      rw [splitWordsFrom_cons] at h
      split_ifs at h
      · obtain ⟨more, -, rfl⟩ := Option.map_eq_some_iff.1 h
        exact ⟨[], more, by rw [List.append_nil]; rfl⟩
      · obtain ⟨rest, more, rfl⟩ := ih h
        exact ⟨_, more, by rw [Option.getD_some, List.append_assoc]⟩

/-- A text that is not all gaps has a word. -/
theorem ne_nil_of_splitWordsFrom {s : List Char} {c : Char} (hc : isWordGap c = false)
    (hmem : c ∈ s) (h : splitWordsFrom .bare none s = some words) : words ≠ [] := by
  induction s with
  | nil => exact absurd hmem List.not_mem_nil
  | cons d tail ih =>
      rw [splitWordsFrom_cons] at h
      split_ifs at h with hgap
      · have hne : c ≠ d := by
          rintro rfl
          simp [hc] at hgap
        simp only [Option.toList_none, List.nil_append, Option.map_id'] at h
        exact ih (List.mem_of_ne_of_mem hne hmem) h
      · obtain ⟨rest, more, rfl⟩ := exists_of_splitWordsFrom h
        exact List.cons_ne_nil _ _

end Steps

/-- What a character of a word weighs; `k` is the weight of single quotes. -/
def charWeight (k : Nat) (c : Char) : Nat :=
  if c = '\'' then k else if c = '\\' ∨ c = '"' then 1 else 0

/-- What a character of a command can give to a word: a double quote nothing, unless a backslash
is given up for it. -/
def charWorth (k : Nat) (c : Char) : Nat :=
  if c = '\'' then k else if c = '\\' then 1 else 0

/-- The weight of a word. -/
def weight (k : Nat) : List Char → Nat
  | [] => 0
  | c :: rest => charWeight k c + weight k rest

/-- The worth of a text. -/
def worth (k : Nat) : List Char → Nat
  | [] => 0
  | c :: rest => charWorth k c + worth k rest

/-- What a reader may give beyond the worth of the text that it has still to read: inside single
quotes each double quote stands for itself, and a backslash that was read may be spent. -/
def WordMode.surplus : WordMode → List Char → Nat
  | .single, s => s.count '"'
  | .bareEscape, _ | .doubleEscape, _ => 1
  | .bare, _ | .double, _ => 0

section Weights

variable {k : Nat} {s t : List Char}

@[simp] theorem weight_nil : weight k [] = 0 := rfl

@[simp] theorem worth_nil : worth k [] = 0 := rfl

@[simp] theorem weight_cons (c : Char) : weight k (c :: s) = charWeight k c + weight k s := rfl

@[simp] theorem worth_cons (c : Char) : worth k (c :: s) = charWorth k c + worth k s := rfl

@[simp] theorem weight_append : weight k (s ++ t) = weight k s + weight k t := by
  induction s with
  | nil => rw [List.nil_append, weight_nil, Nat.zero_add]
  | cons c tail ih => rw [List.cons_append, weight_cons, weight_cons, ih, Nat.add_assoc]

@[simp] theorem worth_append : worth k (s ++ t) = worth k s + worth k t := by
  induction s with
  | nil => rw [List.nil_append, worth_nil, Nat.zero_add]
  | cons c tail ih => rw [List.cons_append, worth_cons, worth_cons, ih, Nat.add_assoc]

@[simp] theorem charWeight_slash : charWeight k '\\' = 1 := rfl

@[simp] theorem charWorth_slash : charWorth k '\\' = 1 := rfl

@[simp] theorem charWorth_quote : charWorth k '"' = 0 := rfl

theorem worth_escapeDoubleQuotes (k : Nat) (s : List Char) :
    worth k (escapeDoubleQuotes s) = weight k s := by
  induction s with
  | nil => rfl
  | cons c tail ih =>
      by_cases hquote : c = '"'
      · subst c
        simp [escapeDoubleQuotes, charWeight, ih]
      · simp [escapeDoubleQuotes, charWeight, charWorth, hquote, ih]

/-- One character gives no more than it is worth, where a single quote is worth all double quotes
after it. -/
theorem weight_read_le (mode : WordMode) (c : Char) (hk : s.count '"' ≤ k) :
    weight k (mode.read c).2 + (mode.read c).1.surplus s ≤
      charWorth k c + mode.surplus (c :: s) := by
  have hone : charWeight k c ≤ charWorth k c + 1 := by
    unfold charWeight charWorth
    split_ifs <;> simp_all
  have hplain : c ≠ '"' → charWeight k c = charWorth k c := by
    intro hne
    simp [charWeight, charWorth, hne]
  cases mode with
  | bare =>
      simp only [WordMode.read]
      split_ifs with hs hq hd
      · simp [hs, WordMode.surplus]
      · simpa [hq, charWorth, WordMode.surplus] using hk
      · simp [WordMode.surplus]
      · simp [WordMode.surplus, hplain hd]
  | single =>
      simp only [WordMode.read]
      split_ifs with hq
      · simp [WordMode.surplus]
      · by_cases hd : c = '"'
        · subst c
          simp [WordMode.surplus, charWeight, Nat.add_comm]
        · simp [WordMode.surplus, hplain hd, List.count_le_count_cons]
  | double =>
      simp only [WordMode.read]
      split_ifs with hd hs
      · simp [WordMode.surplus]
      · simp [hs, WordMode.surplus]
      · simp [WordMode.surplus, hplain hd]
  | bareEscape => simpa [WordMode.read, WordMode.surplus] using hone
  | doubleEscape =>
      simp only [WordMode.read]
      split_ifs with hd
      · simpa [WordMode.surplus] using hone
      · rw [not_or] at hd
        simp [WordMode.surplus, hplain hd.1, Nat.add_comm]

end Weights

section Bounds

variable {k : Nat} {tail last : List Char}

/-- A piece is seen at the end of a command, and where it ends the command as its last word it
gives no more than the weight of that word. -/
structure EndsIn (k : Nat) (tail last : List Char) : Prop where
  seen : ∃ c ∈ tail, isWordGap c = false
  weight_le (mode : WordMode) (word : Option (List Char)) (words : List (List Char)) :
    splitWordsFrom mode word tail = some words → words.getLast? = some last →
      weight k words.flatten ≤ weight k (word.getD []) + mode.surplus [] + weight k last

/-- The words are no heavier than the text allows, however its quotations are taken apart. -/
theorem EndsIn.weight_le_of_append (htail : EndsIn k tail last) {mode : WordMode}
    {word : Option (List Char)} {s : List Char} (hk : s.count '"' ≤ k)
    {words : List (List Char)}
    (h : splitWordsFrom mode word (s ++ tail) = some words) (hlast : words.getLast? = some last) :
    weight k words.flatten ≤
      weight k (word.getD []) + worth k s + mode.surplus s + weight k last := by
  obtain ⟨c, hc, hgap⟩ := htail.seen
  induction s generalizing mode word words with
  | nil => simpa using htail.weight_le mode word words h hlast
  | cons d rest ih =>
      have hrest : rest.count '"' ≤ k := List.count_le_count_cons.trans hk
      rw [List.cons_append, splitWordsFrom_cons] at h
      split_ifs at h with hbreak
      · obtain ⟨later, hlater, rfl⟩ := Option.map_eq_some_iff.1 h
        have hne := ne_nil_of_splitWordsFrom hgap (List.mem_append_right _ hc) hlater
        rw [List.getLast?_append_of_ne_nil _ hne] at hlast
        have hle := ih hrest hlater hlast
        have hbegun : weight k word.toList.flatten = weight k (word.getD []) := by
          cases word <;> simp
        simp only [Option.getD_none, weight_nil, WordMode.surplus] at hle
        rw [List.flatten_append, weight_append, hbegun, worth_cons]
        omega
      · have hle := ih hrest h hlast
        have hread := weight_read_le mode d hrest
        rw [Option.getD_some, weight_append] at hle
        rw [worth_cons]
        omega

end Bounds

section Ends

variable {mode : WordMode} {s word longer : List Char} {c : Char}

/-- The last word that is read of a text ends in another way than with a given one. -/
def EndsOtherwise (mode : WordMode) (s word : List Char) : Prop :=
  ∀ (begun : Option (List Char)) (words : List (List Char)) (last : List Char),
    splitWordsFrom mode begun s = some words → words.getLast? = some last → ¬ word <:+ last

theorem EndsOtherwise.of_none (h : ∀ begun, splitWordsFrom mode begun s = none) :
    EndsOtherwise mode s word := by
  intro begun words last hwords
  rw [h] at hwords
  contradiction

theorem EndsOtherwise.of_suffix (h : EndsOtherwise mode s word) (hlonger : word <:+ longer) :
    EndsOtherwise mode s longer :=
  fun begun words last hwords hlast hsuffix =>
    h begun words last hwords hlast (hlonger.trans hsuffix)

/-- A reader that ends otherwise after a character does so before it. -/
theorem EndsOtherwise.cons {d : Char} (hd : isWordGap d = false) (hmem : d ∈ s)
    (h : EndsOtherwise (mode.read c).1 s word) : EndsOtherwise mode (c :: s) word := by
  intro begun words last hwords hlast
  rw [splitWordsFrom_cons] at hwords
  split_ifs at hwords with hbreak
  · obtain ⟨later, hlater, rfl⟩ := Option.map_eq_some_iff.1 hwords
    rw [List.getLast?_append_of_ne_nil _ (ne_nil_of_splitWordsFrom hd hmem hlater)] at hlast
    rw [hbreak.1, WordMode.read_gap hbreak.2] at h
    exact h none later last hlater hlast
  · exact h _ words last hwords hlast

/-- The same for several characters, of which none ends a word. -/
theorem EndsOtherwise.append {front : List Char} {d : Char} (hd : isWordGap d = false)
    (hmem : d ∈ s) (h : EndsOtherwise (front.foldl (fun m c => (m.read c).1) mode) s word) :
    EndsOtherwise mode (front ++ s) word := by
  induction front generalizing mode with
  | nil => exact h
  | cons c rest ih => exact .cons hd (List.mem_append_right _ hmem) (ih h)

/-- The one word that is read has another character before a given end. -/
theorem EndsOtherwise.of_ne {d : Char} (hne : c ≠ d)
    (h : ∀ begun, splitWordsFrom mode begun s = some [begun.getD [] ++ d :: word]) :
    EndsOtherwise mode s (c :: word) := by
  rintro begun words last hwords hlast ⟨front, hfront⟩
  obtain rfl := Option.some.inj ((h begun).symm.trans hwords)
  rw [List.getLast?_singleton, Option.some.injEq] at hlast
  rw [← hlast] at hfront
  exact hne (List.cons.inj (List.append_inj' hfront rfl).2).1

/-- A reader that stands elsewhere than in single quotes at the rest of a quoted word does not read
that word. -/
theorem endsOtherwise_swapQuotes (s : List Char) :
    EndsOtherwise .bare (swapQuotes s ++ ['\'']) s ∧
      EndsOtherwise .bareEscape (swapQuotes s ++ ['\'']) ('\\' :: s) ∧
      EndsOtherwise .double (swapQuotes s ++ ['\'']) s ∧
      EndsOtherwise .doubleEscape (swapQuotes s ++ ['\'']) s := by
  have hgap : isWordGap '\'' = false := by decide
  have hne : '\\' ≠ '\'' := by decide
  induction s with
  | nil =>
      refine ⟨.of_none ?_, .of_ne hne ?_, .of_none ?_, .of_none ?_⟩
      all_goals
        intro begun
        cases begun <;> rfl
  | cons c tail ih =>
      obtain ⟨hbare, hbareEscape, hdouble, hdoubleEscape⟩ := ih
      have hmem : '\'' ∈ swapQuotes tail ++ ['\''] := by simp
      have htail : tail <:+ c :: tail := List.suffix_cons c tail
      by_cases hc : c = '\''
      · subst c
        have hswap : swapQuotes ('\'' :: tail) ++ ['\''] =
            ['\'', '"', '\'', '"', '\''] ++ (swapQuotes tail ++ ['\'']) := by
          simp [swapQuotes]
        rw [hswap]
        refine ⟨.append hgap hmem (hdouble.of_suffix htail), .of_ne hne ?_,
          .append hgap hmem (hbare.of_suffix htail), .append hgap hmem (hbare.of_suffix htail)⟩
        -- The single quote is escaped, and the next one opens the rest as it should be.
        intro begun
        have hread := splitWordsFrom_swapQuotes tail (begun.getD [] ++ ['\'', '\'']) []
        cases begun <;> simpa [splitWordsFrom, isWordGap] using hread
      · have hswap : swapQuotes (c :: tail) ++ ['\''] = c :: (swapQuotes tail ++ ['\'']) := by
          simp [swapQuotes, hc]
        rw [hswap]
        refine ⟨.cons hgap hmem ?_, .cons hgap hmem ?_, .cons hgap hmem ?_, .cons hgap hmem ?_⟩
        · simp only [WordMode.read]
          split_ifs with hslash
          · rw [hslash]
            exact hbareEscape
          · exact hdouble.of_suffix htail
          · exact hbare.of_suffix htail
        · exact hbare.of_suffix (htail.trans (List.suffix_cons _ _))
        · simp only [WordMode.read]
          split_ifs
          · exact hbare.of_suffix htail
          · exact hdoubleEscape.of_suffix htail
          · exact hdouble.of_suffix htail
        · simp only [WordMode.read]
          split_ifs
          · exact hdouble.of_suffix htail
          · exact hdouble.of_suffix htail

theorem splitWordsFrom_single_eq_none (h : MadeOf isBare s) (begun : Option (List Char)) :
    splitWordsFrom .single begun s = none := by
  induction s generalizing begun with
  | nil => cases begun <;> rfl
  | cons c tail ih =>
      obtain ⟨hc, htail⟩ := List.forall_mem_cons.1 h
      have hquote : c ≠ '\'' := ne_of_kind hc (by decide)
      simp [splitWordsFrom, hquote, ih htail]

/-- A word at the end of a command is not read from inside of quotes. -/
theorem endsOtherwise_shellWord (s : List Char) :
    EndsOtherwise .single (shellWord s) s ∧ EndsOtherwise .double (shellWord s) s := by
  have hgap : isWordGap '\'' = false := by decide
  have hmem : '\'' ∈ swapQuotes s ++ ['\''] := by simp
  rw [shellWord]
  split
  · refine ⟨.of_none ?_, .of_none ?_⟩
    all_goals
      intro begun
      cases begun <;> rfl
  · split
    · next hsafe =>
        have hbare : MadeOf isBare s :=
          fun c hc => isBare_of_isShellSafe (List.all_eq_true.1 hsafe c hc)
        have hunescaped : MadeOf isUnescaped s :=
          hbare.imp fun c hc => by
            have hslash : c ≠ '\\' := ne_of_kind hc (by decide)
            have hquote : c ≠ '"' := ne_of_kind hc (by decide)
            simp [isUnescaped, hslash, hquote]
        exact ⟨.of_none (splitWordsFrom_single_eq_none hbare),
          .of_none (splitWordsFrom_double_eq_none hunescaped)⟩
    · obtain ⟨hbare, -, hdouble, -⟩ := endsOtherwise_swapQuotes s
      exact ⟨.cons hgap hmem hbare, .cons hgap hmem hdouble⟩

theorem exists_mem_shellWord (s : List Char) : ∃ c ∈ shellWord s, isWordGap c = false := by
  have hquote : isWordGap '\'' = false := by decide
  rw [shellWord]
  split
  · exact ⟨_, List.mem_cons_self, hquote⟩
  · next hne =>
      split
      · next hsafe =>
          obtain ⟨c, hc⟩ := List.exists_mem_of_ne_nil s (by simpa using hne)
          have hbare := isBare_of_isShellSafe (List.all_eq_true.1 hsafe c hc)
          simp only [isBare, Bool.and_eq_true, Bool.not_eq_true'] at hbare
          exact ⟨c, hc, hbare.1.1.1⟩
      · exact ⟨_, List.mem_cons_self, hquote⟩

theorem endsIn_shellWord (k : Nat) (s : List Char) : EndsIn k (' ' :: shellWord s) s := by
  obtain ⟨c, hc, hgap⟩ := exists_mem_shellWord s
  refine ⟨⟨c, List.mem_cons_of_mem _ hc, hgap⟩, ?_⟩
  intro mode word words hwords hlast
  have hread := readsAs_shellWord s
  have hmisread : ∀ {mode' : WordMode}, mode' = .single ∨ mode' = .double →
      ∀ begun, splitWordsFrom mode' begun (shellWord s) ≠ some words := by
    rintro mode' (rfl | rfl) begun hwords
    · exact (endsOtherwise_shellWord s).1 begun words s hwords hlast (List.suffix_refl s)
    · exact (endsOtherwise_shellWord s).2 begun words s hwords hlast (List.suffix_refl s)
  rw [splitWordsFrom_cons] at hwords
  cases mode with
  | bare =>
      have hword : splitWordsFrom .bare none (shellWord s) = some [s] := by
        simpa [splitWordsFrom] using hread none []
      rw [if_pos ⟨rfl, rfl⟩, hword] at hwords
      obtain rfl := Option.some.inj hwords
      cases word <;> simp
  | bareEscape =>
      have hword := hread (some (word.getD [] ++ [' '])) []
      rw [List.append_nil] at hword
      obtain rfl := Option.some.inj (hword.symm.trans hwords)
      simp [charWeight]
  | single => exact absurd hwords (hmisread (Or.inl rfl) _)
  | double => exact absurd hwords (hmisread (Or.inr rfl) _)
  | doubleEscape => exact absurd hwords (hmisread (Or.inr rfl) _)

end Ends

section Names

variable {s last : List Char}

/-- A backslash that escapes another one is lost: what is left of the text is too light. -/
theorem ne_of_escapedBackslash {word text : List Char} {words : List (List Char)}
    (hweight : ∀ k, weight k words.flatten =
      weight k word + worth k ('\\' :: '\\' :: text) + weight k last)
    (hlast : words.getLast? = some last) :
    splitWordsFrom .double (some word) ('\\' :: '\\' :: text ++ ' ' :: shellWord last) ≠
      some words := by
  intro h
  have hread : splitWordsFrom .double (some (word ++ ['\\'])) (text ++ ' ' :: shellWord last) =
      some words := h
  have hle := (endsIn_shellWord (text.count '"') last).weight_le_of_append le_rfl hread hlast
  rw [hweight, Option.getD_some] at hle
  simp only [weight_append, weight_cons, weight_nil, worth_cons, charWeight_slash,
    charWorth_slash, WordMode.surplus] at hle
  omega

/-- A backslash that escapes what comes after it is not read as itself. -/
theorem ne_of_escape {word tail rest : List Char} {more : List (List Char)}
    (hescape : tail.head?.any isUnescaped ≠ true)
    (hweight : ∀ k, weight k more.flatten = worth k rest + weight k last)
    (hlast : more.getLast? = some last) :
    splitWordsFrom .double (some word)
      (escapeDoubleQuotes ('\\' :: tail) ++ '"' :: (rest ++ ' ' :: shellWord last)) ≠
        some ((word ++ '\\' :: tail) :: more) := by
  cases tail with
  | nil =>
      intro h
      have hclose : splitWordsFrom .double (some (word ++ ['"']))
          (rest ++ ' ' :: shellWord last) = some ((word ++ ['\\']) :: more) := h
      obtain ⟨chars, words, hwords⟩ := exists_of_splitWordsFrom hclose
      simp at hwords
  | cons d later =>
      rw [List.head?_cons, Option.any_some] at hescape
      obtain ⟨text, htext⟩ : ∃ text, escapeDoubleQuotes (d :: later) = '\\' :: text := by
        by_cases hquote : d = '"'
        · exact ⟨_, by rw [hquote]; rfl⟩
        · have hslash : d = '\\' := by simpa [isUnescaped, hquote] using hescape
          exact ⟨_, by rw [hslash]; rfl⟩
      have htwo : escapeDoubleQuotes ('\\' :: d :: later) = '\\' :: '\\' :: text := by
        rw [← htext]
        rfl
      have hall : ∀ k, weight k ((word ++ '\\' :: d :: later) :: more).flatten =
          weight k word + worth k ('\\' :: '\\' :: (text ++ '"' :: rest)) + weight k last := by
        intro k
        have hname := worth_escapeDoubleQuotes k ('\\' :: d :: later)
        rw [htwo] at hname
        rw [List.flatten_cons, weight_append, weight_append, hweight, ← hname]
        simp only [worth_cons, worth_append, charWorth_quote]
        omega
      have hends : ((word ++ '\\' :: d :: later) :: more).getLast? = some last := by
        rw [List.getLast?_cons, hlast, Option.getD_some]
      rw [htwo]
      simpa using ne_of_escapedBackslash hall hends

/-- Where a double-quoted name is read back, each of its backslashes is kept. -/
theorem keepsBackslashes_of_splitWordsFrom {word rest : List Char} {more : List (List Char)}
    (hweight : ∀ k, weight k more.flatten = worth k rest + weight k last)
    (hlast : more.getLast? = some last)
    (h : splitWordsFrom .double (some word)
      (escapeDoubleQuotes s ++ '"' :: (rest ++ ' ' :: shellWord last)) =
        some ((word ++ s) :: more)) :
    keepsBackslashes s = true := by
  induction s generalizing word with
  | nil => rfl
  | cons c tail ih =>
      by_cases hc : (c != '\\' || tail.head?.any isUnescaped) = true
      · rw [splitWordsFrom_escapeDoubleQuotes_cons hc] at h
        rw [keepsBackslashes, hc, Bool.true_and]
        apply ih
        rw [h, List.append_assoc, List.singleton_append]
      · rw [Bool.or_eq_true, not_or, bne_iff_ne, not_not] at hc
        obtain ⟨rfl, hescape⟩ := hc
        exact absurd h (ne_of_escape hescape hweight hlast)

/-- A double-quoted name is read as it is just when each of its backslashes is kept. -/
theorem readsAs_doubleQuoted_iff :
    ReadsAs ('"' :: escapeDoubleQuotes s ++ ['"']) s ↔ keepsBackslashes s = true := by
  constructor
  · intro h
    have hread := h none (' ' :: shellWord [])
    rw [List.cons_append, List.cons_append, splitWordsFrom_bare_double, List.append_assoc,
      List.singleton_append] at hread
    have hweight : ∀ k, weight k [[]].flatten = worth k [] + weight k [] := fun _ => rfl
    exact keepsBackslashes_of_splitWordsFrom hweight rfl hread
  · exact readsAs_doubleQuoted

/-- A piece of a command is made for a word: it is worth the word, and it is read as the word or
is the word in double quotes. -/
structure MadeFor (piece word : List Char) : Prop where
  worth_eq (k : Nat) : worth k piece = weight k word
  shape : ReadsAs piece word ∨ piece = '"' :: escapeDoubleQuotes word ++ ['"']

theorem worth_eq_weight (h : MadeOf isBare s) (k : Nat) : worth k s = weight k s := by
  induction s with
  | nil => rfl
  | cons c tail ih =>
      obtain ⟨hc, htail⟩ := List.forall_mem_cons.1 h
      have hquote : c ≠ '"' := ne_of_kind hc (by decide)
      simp [charWorth, charWeight, hquote, ih htail]

theorem MadeFor.of_bare (hne : s ≠ []) (h : MadeOf isBare s) : MadeFor s s where
  worth_eq := worth_eq_weight h
  shape := Or.inl (readsAs_of_bare hne h)

theorem madeFor_doubleQuoted (s : List Char) :
    MadeFor ('"' :: escapeDoubleQuotes s ++ ['"']) s where
  worth_eq k := by
    rw [List.cons_append, worth_cons, worth_append, worth_escapeDoubleQuotes]
    simp
  shape := Or.inr rfl

theorem worth_flatMap {pieces words : List (List Char)} (h : List.Forall₂ MadeFor pieces words)
    (k : Nat) : worth k (pieces.flatMap (' ' :: ·)) = weight k words.flatten := by
  induction h with
  | nil => rfl
  | cons hpiece _ ih =>
      rw [List.flatMap_cons, List.flatten_cons, worth_append, weight_append, ih, worth_cons,
        hpiece.worth_eq]
      simp [charWorth]

/-- A last piece and the pieces before it, each with a blank in front. -/
theorem cons_intercalate (pieces : List (List Char)) (s : List Char) :
    ' ' :: [' '].intercalate (pieces ++ [s]) = pieces.flatMap (' ' :: ·) ++ ' ' :: s := by
  induction pieces with
  | nil => rw [List.nil_append, List.intercalate_singleton, List.flatMap_nil, List.nil_append]
  | cons piece rest ih =>
      rw [List.cons_append, List.intercalate_cons_of_ne_nil (by simp), List.flatMap_cons,
        List.append_assoc, List.append_assoc, ← ih]
      rfl

/-- Where a command is split into the words that it was made for, every piece is read as its
word. -/
theorem forall₂_readsAs_of_splitWords {pieces words : List (List Char)}
    (hmade : List.Forall₂ MadeFor pieces words)
    (h : splitWords ([' '].intercalate (pieces ++ [shellWord last])) = some (words ++ [last])) :
    List.Forall₂ ReadsAs pieces words := by
  induction hmade with
  | nil => exact .nil
  | @cons piece word pieces words hpiece hrest ih =>
      rw [List.cons_append, List.intercalate_cons_of_ne_nil (by simp), List.append_assoc,
        List.singleton_append] at h
      have hread : ReadsAs piece word := by
        rcases hpiece.shape with hread | rfl
        · exact hread
        · rw [cons_intercalate, List.cons_append, List.cons_append, splitWords,
            splitWordsFrom_bare_double, List.append_assoc, List.singleton_append] at h
          have hweight : ∀ k, weight k (words ++ [last]).flatten =
              worth k (pieces.flatMap (' ' :: ·)) + weight k last := by
            intro k
            rw [List.flatten_append, weight_append, worth_flatMap hrest, List.flatten_singleton]
          exact readsAs_doubleQuoted
            (keepsBackslashes_of_splitWordsFrom hweight List.getLast?_concat h)
      have hsplit : (splitWords ([' '].intercalate (pieces ++ [shellWord last]))).map (word :: ·) =
          some (word :: (words ++ [last])) := by
        rw [← hread.splitWords_append, h, List.cons_append]
      obtain ⟨later, hlater, hwords⟩ := Option.map_eq_some_iff.1 hsplit
      rw [(List.cons.inj hwords).2] at hlater
      exact .cons hread (ih hlater)

/-- A command that ends with a quoted word is split into the words that it was made for just when
every piece is read as its word. -/
theorem splitWords_intercalate_iff {pieces words : List (List Char)}
    (hmade : List.Forall₂ MadeFor pieces words) (last : List Char) :
    splitWords ([' '].intercalate (pieces ++ [shellWord last])) = some (words ++ [last]) ↔
      List.Forall₂ ReadsAs pieces words := by
  constructor
  · exact forall₂_readsAs_of_splitWords hmade
  · intro h
    exact splitWords_intercalate (List.rel_append h (.cons (readsAs_shellWord last) .nil))

end Names

end Montage.Text
