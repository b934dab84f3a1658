import Montage.Yaml.Cursor

/-!
Plain scalars: text without quotes.

Such a text ends at a colon or a comment that stands apart, in a flow collection also at the
characters that shape it.  The line ends in it fold to blanks.
-/

namespace Montage.Yaml

/-- Characters that shape a flow collection. -/
def isFlowMark (c : Char) : Bool :=
  c == ',' || c == '[' || c == ']' || c == '\x7b' || c == '\x7d'

/-- Whether a run of plain text ends here. -/
def endsPlain (inFlow : Bool) : List Char → Bool
  | [] => true
  | c :: rest =>
    isSpace c || isBreak c
      || (c == ':' && (isApart rest || (inFlow && rest.head?.any isFlowMark)))
      || (inFlow && (isFlowMark c || c == '?'))

/-- The run of plain text here. -/
def plainRun (inFlow : Bool) : List Char → List Char
  | [] => []
  | c :: rest => if endsPlain inFlow (c :: rest) then [] else c :: plainRun inFlow rest

/-- Whether a plain scalar can start here. -/
def startsPlain (inFlow : Bool) : List Char → Bool
  | [] => false
  | c :: rest =>
    !(isSpace c || isBreak c || isFlowMark c
        || ['-', '?', ':', '#', '&', '*', '!', '|', '>', '\'', '"', '%', '@', '\x60'].contains c)
      || (!isApart rest && (c == '-' || (!inFlow && (c == '?' || c == ':'))))

/-- The line ends that follow a first one, none if a document begins or ends there. -/
def emptyLines : Nat → Cursor → Option (List Char) × Cursor
  | 0, c => (some [], c)
  | fuel + 1, c =>
    if c.atMarker then (none, c)
    else
      let c := c.skip (· == ' ')
      match c.takeBreak? with
      | none => (some [], c)
      | some (b, c) =>
        let (more, c) := emptyLines fuel c
        (more.map (b :: ·), c)

/-- Line ends folded: a single line feed is a blank, and it is dropped before others. -/
def foldBreaks (first : Char) (more : List Char) : List Char :=
  if first != '\n' then first :: more
  else if more.isEmpty then [' '] else more

/-- What joins two runs of plain text, empty if the scalar ends here, and whether a line ended. -/
def plainGap (c : Cursor) : List Char × Bool × Cursor :=
  let (spaces, c) := c.span (· == ' ')
  match c.takeBreak? with
  | none => (spaces, false, c)
  | some (first, c) =>
    match emptyLines c.gapFuel c with
    | (none, c) => ([], true, c)
    | (some more, c) => (foldBreaks first more, true, c)

/-- The rest of a plain scalar after a gap; with it, whether its last gap ended a line.  In a block,
text at or before the enclosing column ends it. -/
def plainFrom (inFlow : Bool) (least : Int) :
    Nat → List Char → Bool → Cursor → List Char × Bool × Cursor
  | 0, _, broke, c => ([], broke, c)
  | fuel + 1, gap, broke, c =>
    let run := if c.peek? == some '#' then [] else plainRun inFlow c.rest
    if run.isEmpty then ([], broke, c)
    else
      let (next, broke, c) := plainGap (c.advanceBy run.length)
      if next.isEmpty || c.peek? == some '#' || (!inFlow && decide ((c.column : Int) < least)) then
        (gap ++ run, broke, c)
      else
        let (more, broke, c) := plainFrom inFlow least fuel next broke c
        (gap ++ run ++ more, broke, c)

/-- The plain scalar here, of at most `fuel` runs; with it, whether a line ended after its text. -/
def plainScalar (inFlow : Bool) (least : Int) (fuel : Nat) (c : Cursor) :
    List Char × Bool × Cursor :=
  plainFrom inFlow least fuel [] false c

end Montage.Yaml
