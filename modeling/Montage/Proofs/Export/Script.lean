import Montage.Proofs.Export.Arguments
import Montage.Proofs.Export.Untouched

/-!
Reading a concat script back.

A payload comes to the reader of scripts through a tool that expands its escapes.  Of both, only
what scripts rely on is assumed.  Between single quotes the reader takes each character as it is,
so that a backslash written in front of a quote is read as one and the quote ends the path.  The
names that are read back are those without a single quote.
-/

namespace Montage

open Text

/-- A tool that expands escapes, as far as payloads rely on it. -/
structure EscapeExpander where
  expand : List Char → List Char
  expand_nil : expand [] = []
  expand_cons {c : Char} (hc : c ≠ '\\') (rest : List Char) :
    expand (c :: rest) = c :: expand rest
  expand_backslash (rest : List Char) : expand ('\\' :: '\\' :: rest) = '\\' :: expand rest
  expand_lineEnd (rest : List Char) : expand ('\\' :: 'n' :: rest) = '\n' :: expand rest
  expand_quote (rest : List Char) : expand ('\\' :: '\'' :: rest) = '\\' :: '\'' :: expand rest

/-- What a line of a script sets. -/
inductive Keyword where
  | file
  | inpoint
  | outpoint
  deriving DecidableEq

def Keyword.text : Keyword → String
  | .file => "file"
  | .inpoint => "inpoint"
  | .outpoint => "outpoint"

/-- A line of a script, its argument without quotes and escapes. -/
structure Directive where
  keyword : Keyword
  argument : List Char
  deriving DecidableEq

/-- Visible characters of ASCII, and the blank. -/
def isVisible (c : Char) : Bool := decide (' ' ≤ c) && decide (c ≤ '~')

theorem isVisible_of_isNumeral {c : Char} (h : isNumeral c = true) : isVisible c = true :=
  kind_of_isNumeral (by decide) h

/-- A reader of scripts, as far as scripts rely on it.  `argument` reads on in an argument outside
of quotes. -/
structure ScriptReader where
  breaksLine : Char → Bool
  read : List Char → Option (List Directive)
  readLine : List Char → Option (List Directive)
  argument : List Char → Option (List Char)
  breaksLine_visible {c : Char} (hc : isVisible c = true) : breaksLine c = false
  read_nil : read [] = some []
  read_line {line : List Char} (hline : MadeOf (fun c => !breaksLine c) line)
    (rest : List Char) : read (line ++ '\n' :: rest) = do
      return (← readLine line) ++ (← read rest)
  readLine_nil : readLine [] = some []
  readLine_keyword (keyword : Keyword) {c : Char} (hc : isWordGap c = false) (rest : List Char) :
    readLine (keyword.text.toList ++ ' ' :: c :: rest) =
      (argument (c :: rest)).map fun text => [⟨keyword, text⟩]
  argument_nil : argument [] = some []
  argument_bare {c : Char} (hc : isBare c = true) (rest : List Char) :
    argument (c :: rest) = (argument rest).map (c :: ·)
  argument_quoted {s : List Char} (hs : '\'' ∉ s) (rest : List Char) :
    argument ('\'' :: s ++ '\'' :: rest) = (argument rest).map (s ++ ·)
  argument_backslash (c : Char) (rest : List Char) :
    argument ('\\' :: c :: rest) = (argument rest).map (c :: ·)

/-- A text with a backslash in front of each single quote. -/
def slashQuotes : List Char → List Char
  | [] => []
  | c :: rest =>
    if c == '\'' then '\\' :: '\'' :: slashQuotes rest else c :: slashQuotes rest

theorem slashQuotes_append (s t : List Char) :
    slashQuotes (s ++ t) = slashQuotes s ++ slashQuotes t := by
  induction s with
  | nil => rfl
  | cons c tail ih =>
      rw [List.cons_append, slashQuotes, slashQuotes, ih]
      split <;> rfl

theorem slashQuotes_of_notMem {s : List Char} (h : '\'' ∉ s) : slashQuotes s = s := by
  induction s with
  | nil => rfl
  | cons c tail ih =>
      obtain ⟨hc, htail⟩ := List.ne_and_not_mem_of_not_mem_cons h
      rw [slashQuotes, if_neg (by simpa using Ne.symm hc), ih htail]

theorem madeOf_slashQuotes {kind : Char → Bool} {s : List Char} (hs : MadeOf kind s)
    (hslash : kind '\\' = true) : MadeOf kind (slashQuotes s) := by
  induction s with
  | nil => exact madeOf_nil
  | cons c tail ih =>
      obtain ⟨hc, htail⟩ := List.forall_mem_cons.1 hs
      rw [slashQuotes]
      split
      · next hquote =>
          rw [← beq_iff_eq.1 hquote]
          exact .cons hslash (.cons hc (ih htail))
      · exact .cons hc (ih htail)

namespace EscapeExpander

variable (e : EscapeExpander)

/-- A piece of a payload that is expanded on its own, whatever stands after it. -/
def Expands (piece out : List Char) : Prop :=
  ∀ rest, e.expand (piece ++ rest) = out ++ e.expand rest

variable {e}

theorem Expands.append {piece out piece' out' : List Char} (h : e.Expands piece out)
    (h' : e.Expands piece' out') : e.Expands (piece ++ piece') (out ++ out') := by
  intro rest
  rw [List.append_assoc, h, h', List.append_assoc]

theorem Expands.of_notMem {s : List Char} (h : '\\' ∉ s) : e.Expands s s := by
  intro rest
  induction s with
  | nil => rfl
  | cons c tail ih =>
      obtain ⟨hc, htail⟩ := List.ne_and_not_mem_of_not_mem_cons h
      rw [List.cons_append, e.expand_cons (Ne.symm hc), ih htail, List.cons_append]

theorem Expands.lineEnd : e.Expands ['\\', 'n'] ['\n'] := e.expand_lineEnd

/-- Of an escaped path the backslashes in front of quotes are left. -/
theorem Expands.escapePath (s : List Char) :
    e.Expands (ConcatScript.escapePath s) (slashQuotes s) := by
  intro rest
  induction s with
  | nil => rfl
  | cons c tail ih =>
      by_cases hslash : c = '\\'
      · subst c
        simp only [ConcatScript.escapePath, slashQuotes, beq_self_eq_true, ↓reduceIte,
          List.cons_append, e.expand_backslash, ih]
        rfl
      · by_cases hquote : c = '\''
        · subst c
          simp [ConcatScript.escapePath, slashQuotes, e.expand_quote, ih]
        · simp [ConcatScript.escapePath, slashQuotes, hslash, hquote,
            e.expand_cons hslash, ih]

end EscapeExpander

namespace ScriptReader

variable {r : ScriptReader}

theorem unbroken_of_visible {s : List Char} (h : MadeOf isVisible s) :
    MadeOf (fun c => !r.breaksLine c) s :=
  h.imp fun _ hc => by rw [r.breaksLine_visible hc, Bool.not_false]

/-- A line of characters that break none is read before the lines after it. -/
theorem read_directive (keyword : Keyword) {text : List Char} {c : Char} {tail : List Char}
    (htext : text = c :: tail) (hc : isWordGap c = false)
    (hline : MadeOf (fun c => !r.breaksLine c) text) (rest : List Char) :
    r.read (keyword.text.toList ++ ' ' :: text ++ '\n' :: rest) =
      (r.argument text).bind fun argument =>
        (r.read rest).map (⟨keyword, argument⟩ :: ·) := by
  have hopening : MadeOf isVisible (keyword.text.toList ++ [' ']) := by
    cases keyword <;> decide
  have hall : MadeOf (fun c => !r.breaksLine c) (keyword.text.toList ++ ' ' :: text) := by
    rw [List.append_cons]
    exact (r.unbroken_of_visible hopening).append hline
  rw [r.read_line hall, htext, r.readLine_keyword keyword hc]
  cases r.argument (c :: tail) with
  | none => rfl
  | some argument =>
      cases r.read rest <;> rfl

/-- A text of bare characters is read as it is. -/
theorem argument_of_bare {text : List Char} (h : MadeOf isBare text) :
    r.argument text = some text := by
  induction text with
  | nil => exact r.argument_nil
  | cons c tail ih =>
      obtain ⟨hc, htail⟩ := List.forall_mem_cons.1 h
      rw [r.argument_bare hc, ih htail]
      rfl

/-- Of a path between single quotes the quotes are dropped, if there are no more of them. -/
theorem argument_of_quoted {s : List Char} (h : '\'' ∉ s) :
    r.argument ('\'' :: s ++ ['\'']) = some s := by
  rw [r.argument_quoted h, r.argument_nil, Option.map_some, List.append_nil]

/-- The backslash in front of the first single quote is read as a character of the path. -/
theorem exists_argument_of_slashed {s t argument : List Char} (h : '\'' ∉ s)
    (hargument : r.argument ('\'' :: s ++ '\\' :: '\'' :: t) = some argument) :
    ∃ rest, argument = s ++ '\\' :: rest := by
  have hslash : '\'' ∉ s ++ ['\\'] := by
    rw [List.mem_append]
    rintro (hs | hslash)
    · exact h hs
    · exact absurd hslash (by decide)
  have hread := r.argument_quoted hslash t
  rw [← List.cons_append, List.append_assoc, List.singleton_append, hargument] at hread
  obtain ⟨rest, -, hrest⟩ := Option.map_eq_some_iff.1 hread.symm
  rw [List.append_assoc, List.singleton_append] at hrest
  exact ⟨rest, hrest.symm⟩

end ScriptReader

namespace CopyPlan

variable (plan : CopyPlan)

/-- The argument of a file directive, as it comes to the reader. -/
def quotedPath : List Char :=
  '\'' :: ("file:".toList ++ slashQuotes plan.media.name.toList) ++ ['\'']

/-- The lines of a window of these times, as they come to the reader. -/
def windowText (text : String × String) : List Char :=
  Keyword.file.text.toList ++ ' ' :: plan.quotedPath ++ '\n' ::
    (Keyword.inpoint.text.toList ++ ' ' :: text.1.toList ++ '\n' ::
      (Keyword.outpoint.text.toList ++ ' ' :: text.2.toList ++ ['\n']))

/-- The lines of a window of these times in a payload. -/
def windowPayload (text : String × String) : List Char :=
  (plan.directives text).flatMap (·.toList ++ ['\\', 'n'])

/-- The directives that play a window of these times of a file. -/
def windowDirectives (path : List Char) (text : String × String) : List Directive :=
  [⟨.file, path⟩, ⟨.inpoint, text.1.toList⟩, ⟨.outpoint, text.2.toList⟩]

/-- The directives that a script is written for. -/
def intendedDirectives (texts : List (String × String)) : List Directive :=
  texts.flatMap (windowDirectives ("file:".toList ++ plan.media.name.toList))

/-- Times as they are written. -/
def IsTimes (text : String × String) : Prop :=
  (IsNumeral text.1 ∧ text.1.toList ≠ []) ∧ IsNumeral text.2 ∧ text.2.toList ≠ []

theorem isTimes_of_mem {texts : List (String × String)} (h : plan.texts = .ok texts) :
    ∀ text ∈ texts, IsTimes text := by
  have hyields : Yields (fun texts => ∀ text ∈ texts, IsTimes text) plan.texts := by
    refine .mapM fun w _ => ?_
    intro text htext
    simp only [Window.texts, bind_eq_ok] at htext
    obtain ⟨start, hstart, stop, hstop, htext⟩ := htext
    obtain rfl := Except.ok.inj htext
    exact ⟨⟨yields_seconds _ _ hstart, yields_seconds_ne_nil _ _ hstart⟩,
      yields_seconds _ _ hstop, yields_seconds_ne_nil _ _ hstop⟩
  exact hyields texts h

theorem intercalate_append (sep : List Char) {pieces : List (List Char)} (h : pieces ≠ []) :
    sep.intercalate pieces ++ sep = pieces.flatMap (· ++ sep) := by
  induction pieces with
  | nil => exact absurd rfl h
  | cons s rest ih =>
      by_cases hrest : rest = []
      · rw [hrest, List.intercalate_singleton, List.flatMap_cons, List.flatMap_nil,
          List.append_nil]
      · rw [List.intercalate_cons_of_ne_nil hrest, List.append_assoc, ih hrest,
          List.flatMap_cons, List.append_assoc]

/-- A payload holds the lines of each window; without windows, an empty line. -/
theorem payload_eq {texts : List (String × String)} (h : plan.texts = .ok texts) :
    ∃ script, plan.payload = .ok script ∧ script.toList =
      if texts.isEmpty then ['\\', 'n'] else texts.flatMap plan.windowPayload := by
  refine ⟨"\\n".intercalate (texts.flatMap plan.directives) ++ "\\n", ?_, ?_⟩
  · rw [payload, scriptLines_eq, h]
    rfl
  · rw [String.toList_append, String.toList_intercalate]
    cases texts with
    | nil => rfl
    | cons t rest =>
        have hne : (List.flatMap plan.directives (t :: rest)).map String.toList ≠ [] := by
          rw [List.flatMap_cons, directives]
          exact List.cons_ne_nil _ _
        rw [intercalate_append _ hne, List.flatMap_map, List.flatMap_assoc]
        rfl

open EscapeExpander

variable {e : EscapeExpander} {r : ScriptReader} {text : String × String}

theorem expands_windowPayload (h : IsTimes text) :
    e.Expands (plan.windowPayload text) (plan.windowText text) := by
  obtain ⟨⟨hstart, -⟩, hstop, -⟩ := h
  have hnumeral : ∀ {s : String}, IsNumeral s → '\\' ∉ s.toList := by
    intro s hs hslash
    exact absurd (hs '\\' hslash) (by decide)
  have hpayload : plan.windowPayload text =
      "file 'file:".toList ++ ConcatScript.escapePath plan.media.name.toList ++ ['\''] ++
          ['\\', 'n'] ++
        ("inpoint ".toList ++ text.1.toList ++ ['\\', 'n'] ++
          ("outpoint ".toList ++ text.2.toList ++ ['\\', 'n'])) := by
    simp only [windowPayload, directives, ConcatScript.path, List.flatMap_cons,
      List.flatMap_nil, String.toList_append, String.toList_ofList, List.append_nil]
    rfl
  have hfile : e.Expands ("file 'file:".toList ++
      ConcatScript.escapePath plan.media.name.toList ++ ['\''] ++ ['\\', 'n'])
      ("file 'file:".toList ++ slashQuotes plan.media.name.toList ++ ['\''] ++ ['\n']) :=
    (((Expands.of_notMem (by decide)).append (.escapePath _)).append
      (.of_notMem (by decide))).append .lineEnd
  have htime : ∀ {opening s : String}, '\\' ∉ opening.toList → IsNumeral s →
      e.Expands (opening.toList ++ s.toList ++ ['\\', 'n'])
        (opening.toList ++ s.toList ++ ['\n']) := by
    intro opening s hopening hs
    exact ((Expands.of_notMem hopening).append (.of_notMem (hnumeral hs))).append .lineEnd
  have htext : plan.windowText text =
      "file 'file:".toList ++ slashQuotes plan.media.name.toList ++ ['\''] ++ ['\n'] ++
        ("inpoint ".toList ++ text.1.toList ++ ['\n'] ++
          ("outpoint ".toList ++ text.2.toList ++ ['\n'])) := by
    simp [windowText, quotedPath, Keyword.text]
  rw [hpayload, htext]
  exact hfile.append ((htime (by decide) hstart).append (htime (by decide) hstop))

/-- The directives of a window are read before those of the later ones. -/
theorem read_windowText (h : IsTimes text)
    (hname : MadeOf (fun c => !r.breaksLine c) plan.media.name.toList) (rest : List Char) :
    r.read (plan.windowText text ++ rest) =
      (r.argument plan.quotedPath).bind fun path =>
        (r.read rest).map (windowDirectives path text ++ ·) := by
  obtain ⟨⟨hstart, hstart'⟩, hstop, hstop'⟩ := h
  have hfile : ∀ rest, r.read (Keyword.file.text.toList ++ ' ' :: plan.quotedPath ++
      '\n' :: rest) = (r.argument plan.quotedPath).bind fun path =>
        (r.read rest).map (⟨.file, path⟩ :: ·) := by
    have hpath : MadeOf (fun c => !r.breaksLine c) plan.quotedPath := by
      have hslash : (!r.breaksLine '\\') = true := by
        rw [r.breaksLine_visible (by decide), Bool.not_false]
      have hslashed := madeOf_slashQuotes hname hslash
      have hopening := r.unbroken_of_visible (s := '\'' :: "file:".toList) (by decide)
      have hclosing := r.unbroken_of_visible (s := ['\'']) (by decide)
      exact (hopening.append hslashed).append hclosing
    exact ScriptReader.read_directive .file rfl (by decide) hpath
  have htime : ∀ (keyword : Keyword) {s : String}, IsNumeral s → s.toList ≠ [] → ∀ rest,
      r.read (keyword.text.toList ++ ' ' :: s.toList ++ '\n' :: rest) =
        (r.read rest).map (⟨keyword, s.toList⟩ :: ·) := by
    intro keyword s hs hne rest
    obtain ⟨c, tail, hcons⟩ := List.exists_cons_of_ne_nil hne
    have hbare : MadeOf isBare s.toList := hs.imp fun _ => isBare_of_isNumeral
    have hgap : isWordGap c = false := by
      have hc := hbare c (hcons ▸ List.mem_cons_self)
      simp only [isBare, Bool.and_eq_true, Bool.not_eq_true'] at hc
      exact hc.1.1.1
    rw [ScriptReader.read_directive keyword hcons hgap
        (r.unbroken_of_visible (hs.imp fun _ => isVisible_of_isNumeral)),
      ScriptReader.argument_of_bare hbare, Option.bind_some]
  have htext : plan.windowText text ++ rest =
      Keyword.file.text.toList ++ ' ' :: plan.quotedPath ++ '\n' ::
        (Keyword.inpoint.text.toList ++ ' ' :: text.1.toList ++ '\n' ::
          (Keyword.outpoint.text.toList ++ ' ' :: text.2.toList ++ '\n' :: rest)) := by
    simp [windowText]
  rw [htext, hfile, htime .inpoint hstart hstart', htime .outpoint hstop hstop']
  cases r.argument plan.quotedPath with
  | none => rfl
  | some path => cases r.read rest <;> rfl

section Names

variable (e : EscapeExpander) {texts : List (String × String)}

/-- Where the path is read at all, each window is read with it. -/
theorem read_windows {path : List Char} (hpath : r.argument plan.quotedPath = some path)
    (htexts : ∀ text ∈ texts, IsTimes text)
    (hname : MadeOf (fun c => !r.breaksLine c) plan.media.name.toList) :
    r.read (e.expand (texts.flatMap plan.windowPayload)) =
      some (texts.flatMap (windowDirectives path)) := by
  induction texts with
  | nil => exact (congrArg r.read e.expand_nil).trans r.read_nil
  | cons text rest ih =>
      obtain ⟨htext, hrest⟩ := List.forall_mem_cons.1 htexts
      rw [List.flatMap_cons, plan.expands_windowPayload htext, plan.read_windowText htext hname,
        hpath, ih hrest]
      rfl

/-- From the directives of a window its path is known. -/
theorem argument_of_read {rest : List (String × String)} (htext : IsTimes text)
    (hname : MadeOf (fun c => !r.breaksLine c) plan.media.name.toList)
    (hread : r.read (e.expand ((text :: rest).flatMap plan.windowPayload)) =
      some (plan.intendedDirectives (text :: rest))) :
    r.argument plan.quotedPath = some ("file:".toList ++ plan.media.name.toList) := by
  rw [List.flatMap_cons, plan.expands_windowPayload htext,
    plan.read_windowText htext hname] at hread
  obtain ⟨path, hpath, hread⟩ := Option.bind_eq_some_iff.1 hread
  obtain ⟨later, -, hread⟩ := Option.map_eq_some_iff.1 hread
  rw [intendedDirectives, List.flatMap_cons] at hread
  have hfirst := (List.cons.inj hread).1
  rw [hpath]
  exact congrArg (fun d => some d.argument) hfirst

theorem notMem_opening {s : List Char} (h : '\'' ∉ s) : '\'' ∉ "file:".toList ++ s := by
  rw [List.mem_append]
  rintro (hopening | hs)
  · exact absurd hopening (by decide)
  · exact h hs

/-- A name is read as the path that is meant just when it has no single quote. -/
theorem argument_quotedPath_iff :
    r.argument plan.quotedPath = some ("file:".toList ++ plan.media.name.toList) ↔
      '\'' ∉ plan.media.name.toList := by
  constructor
  · intro hargument hquote
    obtain ⟨s, t, hname, hs⟩ := List.eq_append_cons_of_mem hquote
    have hpath : '\'' ∉ "file:".toList ++ s := notMem_opening hs
    have hslashed : plan.quotedPath =
        '\'' :: ("file:".toList ++ s) ++ '\\' :: '\'' :: (slashQuotes t ++ ['\'']) := by
      rw [quotedPath, hname, slashQuotes_append, slashQuotes_of_notMem hs, slashQuotes]
      simp
    rw [hslashed] at hargument
    obtain ⟨rest, hrest⟩ := ScriptReader.exists_argument_of_slashed hpath hargument
    -- where the name has its first quote, a backslash was read
    rw [hname, ← List.append_assoc, List.append_cancel_left_eq] at hrest
    exact absurd (List.cons.inj hrest).1 (by decide)
  · intro hquote
    rw [quotedPath, slashQuotes_of_notMem hquote]
    exact ScriptReader.argument_of_quoted (notMem_opening hquote)

/-- A payload is written just when the times of its windows are.  Through whatever tools it goes,
with a name that has no line break, the script is read as what it was written for just when the
name has no single quote or there is no window. -/
theorem read_payload (e : EscapeExpander) (r : ScriptReader)
    (hname : MadeOf (fun c => !r.breaksLine c) plan.media.name.toList) :
    Parallel (fun script texts =>
        r.read (e.expand script.toList) = some (plan.intendedDirectives texts) ↔
          plan.windows = [] ∨ '\'' ∉ plan.media.name.toList)
      plan.payload plan.texts := by
  cases htexts : plan.texts with
  | error f =>
      have hpayload : plan.payload = .error f := by
        rw [payload, scriptLines_eq, htexts]
        rfl
      rw [hpayload]
      exact .error f
  | ok texts =>
      obtain ⟨script, hscript, hchars⟩ := plan.payload_eq htexts
      have htimes := plan.isTimes_of_mem htexts
      have hwindows : plan.windows = [] ↔ texts = [] := by
        have hlength := (forall₂_of_mapM htexts).length_eq
        rw [← List.length_eq_zero_iff, hlength, List.length_eq_zero_iff]
      rw [hscript, ← argument_quotedPath_iff (r := r), hwindows]
      refine .ok ?_
      rw [hchars]
      cases texts with
      | nil =>
          -- the line that is left is empty
          have hread : r.read ['\n'] = some [] := by
            rw [← List.nil_append ['\n'], r.read_line madeOf_nil, r.readLine_nil, r.read_nil]
            rfl
          rw [if_pos List.isEmpty_nil, e.expand_lineEnd, e.expand_nil, hread]
          exact iff_of_true rfl (Or.inl rfl)
      | cons text rest =>
          constructor
          · intro hread
            right
            exact plan.argument_of_read e (htimes text List.mem_cons_self) hname hread
          · rintro (hnil | hpath)
            · exact absurd hnil (List.cons_ne_nil text rest)
            · exact plan.read_windows e hpath htimes hname

end Names

end CopyPlan

/-- Escapes of backslashes and of line ends are expanded, all others left as they are. -/
def expandEscapes : List Char → List Char
  | '\\' :: '\\' :: rest => '\\' :: expandEscapes rest
  | '\\' :: 'n' :: rest => '\n' :: expandEscapes rest
  | c :: rest => c :: expandEscapes rest
  | [] => []

def plainExpander : EscapeExpander where
  expand := expandEscapes
  expand_nil := rfl
  expand_cons hc rest := by
    rw [expandEscapes]
    · rintro _ rfl
      contradiction
    · rintro _ rfl
      contradiction
  expand_backslash _ := rfl
  expand_lineEnd _ := rfl
  expand_quote _ := rfl

/-- Where the reader of an argument stands. -/
inductive ArgumentMode where
  | bare
  | quoted
  | escaped

/-- The rest of an argument, up to a blank outside of quotes. -/
def readArgument : ArgumentMode → List Char → List Char
  | _, [] => []
  | .escaped, c :: rest => c :: readArgument .bare rest
  | .quoted, c :: rest =>
    if c == '\'' then readArgument .bare rest else c :: readArgument .quoted rest
  | .bare, c :: rest =>
    if isWordGap c then []
    else if c == '\\' then readArgument .escaped rest
    else if c == '\'' then readArgument .quoted rest
    else c :: readArgument .bare rest

def Keyword.opening (keyword : Keyword) : List Char := keyword.text.toList ++ [' ']

/-- The directive of a line; an empty line has none, and no other line is without one. -/
def readDirective (line : List Char) : Option (List Directive) :=
  if line.isEmpty then some []
  else
    ([Keyword.file, .inpoint, .outpoint].find? fun k => k.opening.isPrefixOf line).map fun k =>
      [⟨k, readArgument .bare (line.drop k.opening.length)⟩]

/-- The directives of a script whose line is begun. -/
def readScriptFrom (line : List Char) : List Char → Option (List Directive)
  | [] => readDirective line
  | c :: rest =>
    if c == '\n' || c == '\r' then do
      return (← readDirective line) ++ (← readScriptFrom [] rest)
    else readScriptFrom (line ++ [c]) rest

theorem readScriptFrom_append {s : List Char}
    (hs : MadeOf (fun c => !(c == '\n' || c == '\r')) s) (line rest : List Char) :
    readScriptFrom line (s ++ '\n' :: rest) = do
      return (← readDirective (line ++ s)) ++ (← readScriptFrom [] rest) := by
  induction s generalizing line with
  | nil => rw [List.append_nil]; rfl
  | cons c tail ih =>
      obtain ⟨hc, htail⟩ := List.forall_mem_cons.1 hs
      rw [Bool.not_eq_true'] at hc
      rw [List.cons_append, readScriptFrom, hc]
      simp only [Bool.false_eq_true, ↓reduceIte]
      rw [ih htail, List.append_assoc, List.singleton_append]

theorem readArgument_quoted {s : List Char} (hs : '\'' ∉ s) (rest : List Char) :
    readArgument .quoted (s ++ '\'' :: rest) = s ++ readArgument .bare rest := by
  induction s with
  | nil => rfl
  | cons c tail ih =>
      obtain ⟨hc, htail⟩ := List.ne_and_not_mem_of_not_mem_cons hs
      rw [List.cons_append, readArgument, if_neg (by simpa using Ne.symm hc), ih htail,
        List.cons_append]

def plainReader : ScriptReader where
  breaksLine c := c == '\n' || c == '\r'
  read := readScriptFrom []
  readLine := readDirective
  argument s := some (readArgument .bare s)
  breaksLine_visible hc := by
    simp [ne_of_kind hc (by decide : isVisible '\n' = false),
      ne_of_kind hc (by decide : isVisible '\r' = false)]
  read_nil := rfl
  read_line hline rest := readScriptFrom_append hline [] rest
  readLine_nil := rfl
  readLine_keyword keyword c _ rest := by cases keyword <;> rfl
  argument_nil := rfl
  argument_bare hc rest := by
    simp only [isBare, Bool.and_eq_true, Bool.not_eq_true', bne_iff_ne, ne_eq] at hc
    obtain ⟨⟨⟨hgap, hslash⟩, hsingle⟩, -⟩ := hc
    simp [readArgument, hgap, hslash, hsingle]
  argument_quoted hs rest := by
    have hread : readArgument .bare ('\'' :: _ ++ '\'' :: rest) = _ := readArgument_quoted hs rest
    rw [hread, Option.map_some]
  argument_backslash _ _ := rfl

/-- The directives that the plain tools read from the payload of a plan. -/
def CopyPlan.readBack (plan : CopyPlan) : Except Fault (Option (List Directive)) :=
  plan.payload.map fun script => plainReader.read (plainExpander.expand script.toList)

/-- Two parts of a tape in a directory whose name begins like the escape of a line end; the name of
the tape ends with a backslash. -/
def nestedTake : CopyPlan where
  media := { id := "tape", name := "C:\\new\\1\\take \"2\"\\" }
  windows := [⟨0, 1000, 1⟩, ⟨2500, 4000, 1⟩]
  warning := false

theorem read_nestedTake :
    MadeOf (fun c => !plainReader.breaksLine c) nestedTake.media.name.toList ∧
      nestedTake.readBack =
        .ok (some [⟨.file, "file:C:\\new\\1\\take \"2\"\\".toList⟩, ⟨.inpoint, ['0']⟩,
          ⟨.outpoint, ['1']⟩, ⟨.file, "file:C:\\new\\1\\take \"2\"\\".toList⟩,
          ⟨.inpoint, "2.5".toList⟩, ⟨.outpoint, ['4']⟩]) := by
  have hname : MadeOf (fun c => !plainReader.breaksLine c) nestedTake.media.name.toList := by
    decide
  have htexts : nestedTake.texts = .ok [("0", "1"), ("2.5", "4")] := by
    rw [← toOption_eq_some]
    decide +kernel
  refine ⟨hname, ?_⟩
  have hread := nestedTake.read_payload plainExpander plainReader hname
  rw [htexts] at hread
  rw [CopyPlan.readBack]
  generalize nestedTake.payload = payload at hread ⊢
  cases hread with
  | ok hread => exact congrArg Except.ok (hread.2 (Or.inr (by decide)))

/-- A part of a tape with a quote in its name. -/
def quotedTake : CopyPlan where
  media := { id := "tape", name := "it's.mp4" }
  windows := [⟨0, 1000, 1⟩]
  warning := false

/-- A name with a quote is read as another one. -/
theorem read_quotedTake :
    quotedTake.readBack =
        .ok (some [⟨.file, "file:it\\s.mp4".toList⟩, ⟨.inpoint, ['0']⟩, ⟨.outpoint, ['1']⟩]) ∧
      quotedTake.readBack ≠
        quotedTake.texts.map fun texts => some (quotedTake.intendedDirectives texts) := by
  have hread : quotedTake.readBack =
      .ok (some [⟨.file, "file:it\\s.mp4".toList⟩, ⟨.inpoint, ['0']⟩, ⟨.outpoint, ['1']⟩]) := by
    rw [← toOption_eq_some]
    decide +kernel
  have htexts : quotedTake.texts = .ok [("0", "1")] := by
    rw [← toOption_eq_some]
    decide +kernel
  refine ⟨hread, ?_⟩
  rw [hread, htexts]
  intro hsame
  exact absurd (Except.ok.inj hsame) (by decide)

end Montage
