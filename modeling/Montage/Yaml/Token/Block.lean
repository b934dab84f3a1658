import Montage.Yaml.Token.Plain

/-!
Block scalars: indented lines after a bar, which keeps their ends, or after an angle, which folds
them.  A plus keeps all line ends at the end, a minus none.
-/

namespace Montage.Yaml

/-- What happens to the line ends at the end of a block scalar. -/
inductive Chomping where
  | clip | strip | keep
  deriving DecidableEq

structure BlockHeader where
  chomping : Chomping := .clip
  /-- The indentation in columns, if it is given. -/
  indent : Option Nat := none

/-- The header of a block scalar: a sign and a digit that is not zero, in any order. -/
def blockHeader (c : Cursor) : Option (BlockHeader × Cursor) :=
  let sign (c : Cursor) : Option Chomping × Cursor := match c.peek? with
    | some '+' => (some .keep, c.advance)
    | some '-' => (some .strip, c.advance)
    | _ => (none, c)
  let digit (c : Cursor) : Option Nat × Cursor := match c.peek? with
    | some d => if d.isDigit then (some (d.toNat - 48), c.advance) else (none, c)
    | none => (none, c)
  let (before, c) := sign c
  let (indent, c) := digit c
  let (after, c) := if before.isNone && indent.isSome then sign c else (none, c)
  let chomping := (before.or after).getD .clip
  if indent == some 0 then none
  else if c.rest.isEmpty || c.rest.head?.any (fun d => d == ' ' || isBreak d) then
    (c.skipLine?).map fun c => (⟨chomping, indent⟩, c)
  else none

/-- The empty lines before the text, and the greatest column among them. -/
def leadingLines : Nat → Cursor → List Char × Nat × Cursor
  | 0, c => ([], 0, c)
  | fuel + 1, c =>
    let c := c.skip (· == ' ')
    match c.takeBreak? with
    | none => ([], c.column, c)
    | some (b, next) =>
      let (more, widest, last) := leadingLines fuel next
      (b :: more, max c.column widest, last)

/-- Skips blanks up to a column. -/
def skipIndent (column : Nat) : Nat → Cursor → Cursor
  | 0, c => c
  | fuel + 1, c =>
    if c.column < column && c.peek? == some ' ' then skipIndent column fuel c.advance else c

/-- The empty lines between lines of text at a column. -/
def blockEmptyLines (column : Nat) : Nat → Cursor → List Char × Cursor
  | 0, c => ([], c)
  | fuel + 1, c =>
    let c := skipIndent column column c
    match c.takeBreak? with
    | none => ([], c)
    | some (b, c) =>
      let (more, c) := blockEmptyLines column fuel c
      (b :: more, c)

/-- The end of a line inside a block scalar and the empty lines after it, which fold unless the
line before or the line after begins with a blank. -/
def blockJoint (folded plainBefore plainAfter : Bool) (last empty : List Char) : List Char :=
  if folded && last == ['\n'] && plainBefore && plainAfter then
    if empty.isEmpty then [' '] else empty
  else last ++ empty

/-- The lines of a block scalar from here on, empty lines before them. -/
def blockLines (folded : Bool) (chomping : Chomping) (column : Nat) :
    Nat → List Char → Cursor → List Char × Cursor
  | 0, _, c => ([], c)
  | fuel + 1, empty, c =>
    if c.column != column || c.rest.isEmpty then
      (if chomping == .keep then empty else [], c)
    else
      let plainBefore := !c.peek?.any isSpace
      let (line, c) := c.span (!isBreak ·)
      let text := empty ++ line
      let (last, c) := match c.takeBreak? with
        | some (b, c) => ([b], c)
        | none => ([], c)
      let (empty, c) := blockEmptyLines column c.gapFuel c
      if c.column == column && !c.rest.isEmpty then
        let joint := blockJoint folded plainBefore (!c.peek?.any isSpace) last empty
        let (more, c) := blockLines folded chomping column fuel [] c
        (text ++ joint ++ more, c)
      else
        match chomping with
        | .strip => (text, c)
        | .clip => (text ++ last, c)
        | .keep => (text ++ last ++ empty, c)

/-- The block scalar here, of fewer than `fuel` lines, inside a block at a column; the column is
negative at the top. -/
def blockScalar (folded : Bool) (outer : Int) (fuel : Nat) (c : Cursor) :
    Option (List Char × Cursor) := do
  let (header, c) ← blockHeader c.advance
  let least := max 1 (outer + 1).toNat
  match header.indent with
  | some n =>
    let column := least + n - 1
    let (empty, c) := blockEmptyLines column c.gapFuel c
    return blockLines folded header.chomping column fuel empty c
  | none =>
    let (empty, widest, c) := leadingLines c.gapFuel c
    return blockLines folded header.chomping (max least widest) fuel empty c

end Montage.Yaml
