import Mathlib.Data.List.Forall2
import Montage.Proofs.Text.Characters
import Montage.Text.Shell

/-!
Splitting a command gives back the words it was made of.

A piece of a command is read wherever it stands: in front of it a word may have been begun, and
after it the reader goes on outside of quotes.  Pieces with blanks between them are words of their
own.
-/

namespace Montage.Text

/-- A character that stands for itself outside of quotes. -/
def isBare (c : Char) : Bool :=
  !isWordGap c && c != '\\' && c != '\'' && c != '"'

/-- A character before which a backslash stands for itself inside double quotes. -/
def isUnescaped (c : Char) : Bool := c != '"' && c != '\\'

/-- Each backslash has a character after it that it does not escape inside double quotes. -/
def keepsBackslashes : List Char → Bool
  | [] => true
  | c :: rest => (c != '\\' || rest.head?.any isUnescaped) && keepsBackslashes rest

/-- A piece of a command that is read as some characters of a word, whatever stands around it. -/
def ReadsAs (piece chars : List Char) : Prop :=
  ∀ (word : Option (List Char)) (rest : List Char),
    splitWordsFrom .bare word (piece ++ rest) =
      splitWordsFrom .bare (some (word.getD [] ++ chars)) rest

section Bare

theorem splitWordsFrom_bare_cons {c : Char} (hc : isBare c = true)
    (word : Option (List Char)) (rest : List Char) :
    splitWordsFrom .bare word (c :: rest) =
      splitWordsFrom .bare (some (word.getD [] ++ [c])) rest := by
  simp only [isBare, Bool.and_eq_true, Bool.not_eq_true', bne_iff_ne, ne_eq] at hc
  obtain ⟨⟨⟨hgap, hslash⟩, hsingle⟩, hdouble⟩ := hc
  cases word <;> simp [splitWordsFrom, hgap, hslash, hsingle, hdouble]

/-- A bare word is read as it stands; an empty one would not be seen. -/
theorem readsAs_of_bare {piece : List Char} (hne : piece ≠ [])
    (h : MadeOf isBare piece) : ReadsAs piece piece := by
  induction piece with
  | nil => exact absurd rfl hne
  | cons c tail ih =>
      obtain ⟨hc, htail⟩ := List.forall_mem_cons.1 h
      intro word rest
      rw [List.cons_append, splitWordsFrom_bare_cons hc]
      by_cases hnil : tail = []
      · rw [hnil]
        rfl
      · rw [ih hnil htail, Option.getD_some, List.append_assoc, List.singleton_append]

end Bare

section Quoted

theorem splitWordsFrom_bare_single (word : Option (List Char)) (rest : List Char) :
    splitWordsFrom .bare word ('\'' :: rest) =
      splitWordsFrom .single (some (word.getD [])) rest := by
  cases word <;> rfl

theorem splitWordsFrom_bare_double (word : Option (List Char)) (rest : List Char) :
    splitWordsFrom .bare word ('"' :: rest) =
      splitWordsFrom .double (some (word.getD [])) rest := by
  cases word <;> rfl

/-- Between single quotes, each single quote closed, escaped and opened again. -/
theorem splitWordsFrom_closeSingleQuotes (s word rest : List Char) :
    splitWordsFrom .single (some word) (closeSingleQuotes s ++ '\'' :: rest) =
      splitWordsFrom .bare (some (word ++ s)) rest := by
  induction s generalizing word with
  | nil => simp [closeSingleQuotes, splitWordsFrom]
  | cons c tail ih =>
      by_cases hc : c = '\''
      · subst c
        simp [closeSingleQuotes, splitWordsFrom, isWordGap, ih]
      · simp [closeSingleQuotes, splitWordsFrom, hc, ih]

/-- Between single quotes, each single quote closed, double-quoted and opened again. -/
theorem splitWordsFrom_swapQuotes (s word rest : List Char) :
    splitWordsFrom .single (some word) (swapQuotes s ++ '\'' :: rest) =
      splitWordsFrom .bare (some (word ++ s)) rest := by
  induction s generalizing word with
  | nil => simp [swapQuotes, splitWordsFrom]
  | cons c tail ih =>
      by_cases hc : c = '\''
      · subst c
        simp [swapQuotes, splitWordsFrom, isWordGap, ih]
      · simp [swapQuotes, splitWordsFrom, hc, ih]

/-- A backslash before a character that it does not escape is a character of the word. -/
theorem splitWordsFrom_doubleEscape_cons {c : Char} (hc : isUnescaped c = true)
    (word rest : List Char) :
    splitWordsFrom .doubleEscape (some word) (c :: rest) =
      splitWordsFrom .double (some (word ++ ['\\'])) (c :: rest) := by
  simp only [isUnescaped, Bool.and_eq_true, bne_iff_ne, ne_eq] at hc
  simp [splitWordsFrom, hc.1, hc.2]

/-- A character of a name is read as itself, if it is not a backslash that escapes the next one. -/
theorem splitWordsFrom_escapeDoubleQuotes_cons {c : Char} {tail : List Char}
    (h : (c != '\\' || tail.head?.any isUnescaped) = true) (word rest : List Char) :
    splitWordsFrom .double (some word) (escapeDoubleQuotes (c :: tail) ++ '"' :: rest) =
      splitWordsFrom .double (some (word ++ [c])) (escapeDoubleQuotes tail ++ '"' :: rest) := by
  by_cases hslash : c = '\\'
  · subst c
    cases tail with
    | nil => simp at h
    | cons d more =>
        have hd : isUnescaped d = true := by simpa using h
        have hquote : d ≠ '"' := ne_of_kind hd (by decide)
        have hkept := splitWordsFrom_doubleEscape_cons hd word
          (escapeDoubleQuotes more ++ '"' :: rest)
        simp only [escapeDoubleQuotes, beq_iff_eq, hquote, ↓reduceIte, List.cons_append] at hkept ⊢
        exact hkept
  · by_cases hquote : c = '"'
    · subst c
      simp [escapeDoubleQuotes, splitWordsFrom]
    · simp [escapeDoubleQuotes, splitWordsFrom, hslash, hquote]

theorem splitWordsFrom_escapeDoubleQuotes {s : List Char} (h : keepsBackslashes s = true)
    (word rest : List Char) :
    splitWordsFrom .double (some word) (escapeDoubleQuotes s ++ '"' :: rest) =
      splitWordsFrom .bare (some (word ++ s)) rest := by
  induction s generalizing word with
  | nil => simp [escapeDoubleQuotes, splitWordsFrom]
  | cons c tail ih =>
      obtain ⟨hc, htail⟩ := Bool.and_eq_true_iff.1 h
      rw [splitWordsFrom_escapeDoubleQuotes_cons hc, ih htail, List.append_assoc,
        List.singleton_append]

/-- A text without double quotes and backslashes has nothing to escape. -/
theorem escapeDoubleQuotes_of_unescaped {s : List Char} (h : MadeOf isUnescaped s) :
    escapeDoubleQuotes s = s := by
  induction s with
  | nil => rfl
  | cons c tail ih =>
      obtain ⟨hc, htail⟩ := List.forall_mem_cons.1 h
      have hquote : c ≠ '"' := by
        rintro rfl
        simp [isUnescaped] at hc
      simp [escapeDoubleQuotes, hquote, ih htail]

theorem keepsBackslashes_of_unescaped {s : List Char} (h : MadeOf isUnescaped s) :
    keepsBackslashes s = true := by
  induction s with
  | nil => rfl
  | cons c tail ih =>
      obtain ⟨hc, htail⟩ := List.forall_mem_cons.1 h
      have hslash : (c != '\\') = true := (Bool.and_eq_true_iff.1 hc).2
      rw [keepsBackslashes, hslash, ih htail, Bool.true_or, Bool.and_true]

theorem readsAs_singleQuoted (s : List Char) :
    ReadsAs ('\'' :: closeSingleQuotes s ++ ['\'']) s := by
  intro word rest
  rw [List.cons_append, List.cons_append, splitWordsFrom_bare_single, List.append_assoc,
    List.singleton_append, splitWordsFrom_closeSingleQuotes]

theorem readsAs_doubleQuoted {s : List Char} (h : keepsBackslashes s = true) :
    ReadsAs ('"' :: escapeDoubleQuotes s ++ ['"']) s := by
  intro word rest
  rw [List.cons_append, List.cons_append, splitWordsFrom_bare_double, List.append_assoc,
    List.singleton_append, splitWordsFrom_escapeDoubleQuotes h]

/-- Characters that are safe outside of quotes stand for themselves there. -/
theorem isBare_of_isShellSafe {c : Char} (h : isShellSafe c = true) : isBare c = true := by
  have hne : ∀ {d : Char}, isShellSafe d = false → c ≠ d := ne_of_kind h
  have hgap : isWordGap c = false := by
    simp [isWordGap, hne (by decide : isShellSafe ' ' = false),
      hne (by decide : isShellSafe '\t' = false), hne (by decide : isShellSafe '\r' = false),
      hne (by decide : isShellSafe '\n' = false)]
  simp [isBare, hgap, hne (by decide : isShellSafe '\\' = false),
    hne (by decide : isShellSafe '\'' = false), hne (by decide : isShellSafe '"' = false)]

/-- A word that is quoted where it has to be is read as it was. -/
theorem readsAs_shellWord (s : List Char) : ReadsAs (shellWord s) s := by
  rw [shellWord]
  split
  · next hempty =>
      rw [List.isEmpty_iff.1 hempty]
      exact readsAs_singleQuoted []
  · next hne =>
      split
      · next hsafe =>
          apply readsAs_of_bare
          · exact fun hnil => hne (List.isEmpty_iff.2 hnil)
          · exact fun c hc => isBare_of_isShellSafe (List.all_eq_true.1 hsafe c hc)
      · intro word rest
        rw [List.cons_append, List.cons_append, splitWordsFrom_bare_single, List.append_assoc,
          List.singleton_append, splitWordsFrom_swapQuotes]

end Quoted

/-- A piece with a blank after it is a word of its own. -/
theorem ReadsAs.splitWords_append {piece word : List Char} (h : ReadsAs piece word)
    (rest : List Char) :
    splitWords (piece ++ ' ' :: rest) = (splitWords rest).map (word :: ·) := by
  rw [splitWords, h]
  rfl

/-- Pieces with blanks between them are split into what they are read as. -/
theorem splitWords_intercalate {pieces words : List (List Char)}
    (h : List.Forall₂ ReadsAs pieces words) :
    splitWords ([' '].intercalate pieces) = some words := by
  induction h with
  | nil => rfl
  | @cons piece word pieces words hpiece hrest ih =>
      cases hrest with
      | nil =>
          have hlast := hpiece none []
          simpa [splitWords, splitWordsFrom] using hlast
      | @cons next after pieces words hnext hmore =>
          rw [List.intercalate_cons_cons, List.append_assoc, List.singleton_append,
            hpiece.splitWords_append, ih]
          rfl

section Open

/-- The rest of a command is never read, whatever word has been begun. -/
def Unread (rest : List Char) : Prop := ∀ word, splitWordsFrom .bare word rest = none

theorem splitWordsFrom_double_eq_none {s : List Char} (h : MadeOf isUnescaped s)
    (word : Option (List Char)) : splitWordsFrom .double word s = none := by
  induction s generalizing word with
  | nil => cases word <;> rfl
  | cons c tail ih =>
      obtain ⟨hc, htail⟩ := List.forall_mem_cons.1 h
      simp only [isUnescaped, Bool.and_eq_true, bne_iff_ne, ne_eq] at hc
      simp [splitWordsFrom, hc.1, hc.2, ih htail]

/-- A quotation that is left open is not read. -/
theorem unread_open {s : List Char} (h : MadeOf isUnescaped s) :
    Unread ('"' :: s) := by
  intro word
  rw [splitWordsFrom_bare_double, splitWordsFrom_double_eq_none h]

theorem Unread.after {piece chars rest : List Char} (hrest : Unread rest)
    (h : ReadsAs piece chars) : Unread (piece ++ rest) := by
  intro word
  rw [h, hrest]

theorem Unread.afterBare {s rest : List Char} (hrest : Unread rest)
    (h : MadeOf (fun c => isWordGap c || isBare c) s) : Unread (s ++ rest) := by
  induction s with
  | nil => exact hrest
  | cons c tail ih =>
      obtain ⟨hc, htail⟩ := List.forall_mem_cons.1 h
      intro word
      rw [List.cons_append]
      by_cases hgap : isWordGap c = true
      · cases word <;> simp [splitWordsFrom, hgap, ih htail _]
      · have hbare := (Bool.or_eq_true_iff.1 hc).resolve_left hgap
        rw [splitWordsFrom_bare_cons hbare, ih htail]

end Open

end Montage.Text
