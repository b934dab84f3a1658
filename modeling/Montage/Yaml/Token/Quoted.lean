import Montage.Failure
import Montage.Text.Half
import Montage.Yaml.Token.Plain

/-!
Quoted scalars.

Between single quotes a doubled quote stands for one.  Between double quotes a backslash begins an
escape, or drops the end of its line.  Other line ends fold to blanks.
-/

namespace Montage.Yaml

/-- The characters that a backslash and one character stand for. -/
def namedEscapes : List (Char × Char) := [
  ('0', '\x00'), ('a', '\x07'), ('b', '\x08'), ('t', '\t'), ('\t', '\t'), ('n', '\n'),
  ('v', '\x0b'), ('f', '\x0c'), ('r', '\r'), ('e', '\x1b'), (' ', ' '), ('"', '"'),
  ('\\', '\\'), ('/', '/'), ('N', '\x85'), ('_', '\xa0'), ('L', '\u2028'), ('P', '\u2029')]

/-- The letters of escapes by code point, with the number of their digits. -/
def codeEscapes : List (Char × Nat) := [('x', 2), ('u', 4), ('U', 8)]

def hexDigit? (c : Char) : Option Nat :=
  if c.isDigit then some (c.toNat - 48)
  else if 'a' ≤ c ∧ c ≤ 'f' then some (c.toNat - 87)
  else if 'A' ≤ c ∧ c ≤ 'F' then some (c.toNat - 55)
  else none

/-- The value of hexadecimal digits. -/
def hexValue? (s : List Char) : Option Nat :=
  s.foldlM (fun n c => (hexDigit? c).map (16 * n + ·)) 0

/-- The value of an escape by code point at the start of a text, and its length. -/
def codeEscape? : List Char → Option (Nat × Nat)
  | letter :: rest => do
    let width ← codeEscapes.lookup letter
    if rest.length < width then none
    else return (← hexValue? (rest.take width), width + 1)
  | [] => none

/-- The last code point, and the last number that a machine word holds. -/
def lastCodePoint : Nat := 0x10ffff

def lastWord : Nat := 0x7fffffff

/-- The character of an escape by code point, and its length. -/
def codeCharacter (s : List Char) : Except Failure (Char × Nat) := do
  let (n, length) ← orMalformed (codeEscape? s)
  if lastWord < n then throw (.fault .codePointSize)
  if lastCodePoint < n then throw (.fault .codePointRange)
  return (Text.ofCodePoint n, length)

/-- The line ends that follow a first one between quotes; no document may begin or end there. -/
def quotedEmptyLines : Nat → Cursor → Option (List Char × Cursor)
  | 0, c => some ([], c)
  | fuel + 1, c =>
    if c.atMarker then none
    else
      let c := c.skip isSpace
      match c.takeBreak? with
      | none => some ([], c)
      | some (b, c) => do
        let (more, c) ← quotedEmptyLines fuel c
        return (b :: more, c)

/-- What an escape stands for; the place is behind the backslash. -/
def escape (c : Cursor) : Except Failure (List Char × Cursor) := do
  let ch ← orMalformed c.peek?
  match namedEscapes.lookup ch, codeEscapes.lookup ch with
  | some replacement, _ => return ([replacement], c.advance)
  | none, some _ =>
    let (ch, length) ← codeCharacter c.rest
    return ([ch], c.advanceBy length)
  | none, none =>
    let (_, c) ← orMalformed c.takeBreak?
    orMalformed (quotedEmptyLines c.gapFuel c)

/-- Blanks between quotes, folded if a line ends after them. -/
def quotedGap? (c : Cursor) : Option (List Char × Cursor) :=
  let (spaces, c) := c.span isSpace
  match c.takeBreak? with
  | none => if c.rest.isEmpty then none else some (spaces, c)
  | some (first, c) => do
    let (more, c) ← quotedEmptyLines c.gapFuel c
    return (foldBreaks first more, c)

/-- The rest of a quoted scalar; the place is behind its first quote. -/
def quotedFrom (quote : Char) : Nat → Cursor → Except Failure (List Char × Cursor)
  | 0, _ => .error .malformed
  | fuel + 1, c =>
    match c.rest with
    | [] => .error .malformed
    | ch :: rest =>
      if ch == quote && !(quote == '\'' && rest.head? == some quote) then .ok ([], c.advance)
      else do
        let (piece, c) ←
          if ch == quote then pure ([ch], c.advanceBy 2)
          else if isSpace ch || isBreak ch then orMalformed (quotedGap? c)
          else if ch == '\\' && quote == '"' then escape c.advance
          else
            let (run, after) := c.span fun d => !(isSpace d || isBreak d || d == quote || d == '\\')
            pure (if run.isEmpty then ([ch], c.advance) else (run, after))
        let (more, c) ← quotedFrom quote fuel c
        return (piece ++ more, c)

/-- The quoted scalar here, of fewer than `fuel` characters. -/
def quotedScalar (quote : Char) (fuel : Nat) (c : Cursor) :
    Except Failure (List Char × Cursor) :=
  quotedFrom quote fuel c.advance

end Montage.Yaml
