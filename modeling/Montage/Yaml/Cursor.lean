/-!
A place in the text of a document.

A carriage return, with or without a line feed, has become a line feed before; a byte order mark
takes no column.
-/

namespace Montage.Yaml

/-- Characters that end a line. -/
def isBreak (c : Char) : Bool :=
  c == '\n' || c == '\x85' || c == '\u2028' || c == '\u2029'

/-- Blanks inside a line. -/
def isSpace (c : Char) : Bool := c == ' ' || c == '\t'

/-- Whether a text is at its end, at a blank or at the end of a line. -/
def isApart : List Char → Bool
  | [] => true
  | c :: _ => isSpace c || isBreak c

structure Cursor where
  rest : List Char
  index : Nat := 0
  line : Nat := 0
  column : Nat := 0

namespace Cursor

def peek? (c : Cursor) : Option Char := c.rest.head?

def advance (c : Cursor) : Cursor :=
  match c.rest with
  | [] => c
  | ch :: rest =>
    if isBreak ch then ⟨rest, c.index + 1, c.line + 1, 0⟩
    else ⟨rest, c.index + 1, c.line, if ch == '\ufeff' then c.column else c.column + 1⟩

def advanceBy : Nat → Cursor → Cursor
  | 0, c => c
  | n + 1, c => advanceBy n c.advance

/-- The longest run of characters of a class, and the place after it. -/
def span (p : Char → Bool) (c : Cursor) : List Char × Cursor :=
  let run := c.rest.takeWhile p
  (run, c.advanceBy run.length)

def skip (p : Char → Bool) (c : Cursor) : Cursor := (c.span p).2

/-- The end of a line at this place, and the place after it; all ends but the line and paragraph
separators count as line feeds. -/
def takeBreak? (c : Cursor) : Option (Char × Cursor) :=
  match c.rest with
  | [] => none
  | ch :: _ =>
    if isBreak ch then
      some (if ch == '\u2028' || ch == '\u2029' then ch else '\n', c.advance)
    else none

/-- One more than the number of blanks and line ends here, so than the number of lines among
them. -/
def gapFuel (c : Cursor) : Nat := (c.rest.takeWhile fun ch => isSpace ch || isBreak ch).length + 1

/-- Whether three characters in a row, and nothing more in the word, stand here. -/
def atWord (ch : Char) (c : Cursor) : Bool :=
  match c.rest with
  | a :: b :: d :: rest => a == ch && b == ch && d == ch && isApart rest
  | _ => false

/-- Whether a line that begins or ends a document starts here. -/
def atMarker (c : Cursor) : Bool := c.atWord '-' || c.atWord '.'

/-- Skips blanks, a comment and the end of the line; nothing else may be left on it. -/
def skipLine? (c : Cursor) : Option Cursor :=
  let c := c.skip (· == ' ')
  let c := if c.peek? == some '#' then c.skip (!isBreak ·) else c
  if c.rest.isEmpty then some c else c.takeBreak?.map (·.2)

end Cursor

end Montage.Yaml
