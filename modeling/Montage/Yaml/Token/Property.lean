import Montage.Yaml.Token
import Montage.Yaml.Token.Quoted

/-!
Directives, and what stands before a node: anchors, aliases and tags.
-/

namespace Montage.Yaml

/-- Characters of names and handles. -/
def isNameChar (c : Char) : Bool := c.isAlphanum || c == '-' || c == '_'

/-- Characters of tags. -/
def isTagChar (c : Char) : Bool :=
  c.isAlphanum || ['-', ';', '/', '?', ':', '@', '&', '=', '+', '$', ',', '_', '.', '!', '~', '*',
    '\'', '(', ')', '[', ']', '%'].contains c

/-- Whether a text is at its end, at a plain blank or at the end of a line. -/
def isAtGap (s : List Char) : Bool := s.head?.all fun c => c == ' ' || isBreak c

/-- The name of an anchor or an alias; the place is at its mark. -/
def nodeName (c : Cursor) : Option (String × Cursor) :=
  let (name, c) := c.advance.span isNameChar
  let mayFollow := isApart c.rest
    || c.rest.head?.any fun d => ['?', ':', ',', ']', '\x7d', '%', '@', '\x60'].contains d
  if name.isEmpty || !mayFollow then none else some (String.ofList name, c)

/-- The bytes of consecutive escapes by two hexadecimal digits. -/
def escapedBytes : List Char → Option (List UInt8 × List Char)
  | '%' :: a :: b :: rest => do
    let byte ← hexValue? [a, b]
    let (more, rest) ← escapedBytes rest
    return (UInt8.ofNat byte :: more, rest)
  | '%' :: _ => none
  | rest => some ([], rest)

/-- The text of a tag with its escapes replaced. -/
def unescapeTag : Nat → List Char → Option (List Char)
  | 0, _ => none
  | _ + 1, [] => some []
  | fuel + 1, '%' :: rest => do
    let (bytes, rest) ← escapedBytes ('%' :: rest)
    let text ← String.fromUTF8? bytes.toByteArray
    return text.toList ++ (← unescapeTag fuel rest)
  | fuel + 1, c :: rest => (unescapeTag fuel rest).map (c :: ·)

/-- The text of a tag, without its handle. -/
def tagText (c : Cursor) : Option (String × Cursor) := do
  let (run, c) := c.span isTagChar
  if run.isEmpty then none
  else return (String.ofList (← unescapeTag (run.length + 1) run), c)

/-- A handle: one exclamation mark, or two with a name between them. -/
def tagHandle (c : Cursor) : Option (String × Cursor) :=
  if c.peek? != some '!' then none
  else
    let c := c.advance
    if c.peek? == some ' ' then some ("!", c)
    else
      let (name, c) := c.span isNameChar
      if c.peek? == some '!' then
        some (String.ofList ('!' :: name ++ ['!']), c.advance)
      else none

/-- Whether a second exclamation mark stands in the word here. -/
def hasSecondMark (s : List Char) : Bool :=
  (s.takeWhile fun c => !(c == ' ' || isBreak c)).contains '!'

/-- The tag before a node: verbatim in angles, a lone mark, or a handle and a text. -/
def tagToken (c : Cursor) : Option (Token × Cursor) := do
  let rest := c.rest.drop 1
  let (token, c) ←
    if rest.head? == some '<' then do
      let (text, c) ← tagText (c.advanceBy 2)
      if c.peek? != some '>' then none else pure (Token.tag none text, c.advance)
    else if isApart rest then pure (Token.tag none "!", c.advance)
    else if hasSecondMark rest then do
      let (handle, c) ← tagHandle c
      let (text, c) ← tagText c
      pure (Token.tag (some handle) text, c)
    else do
      let (text, c) ← tagText c.advance
      pure (Token.tag (some "!") text, c)
  if isAtGap c.rest then some (token, c) else none

/-- The number before the point, or the one after it, of a version. -/
def versionPart (c : Cursor) : Option (Nat × Cursor) :=
  let (digits, c) := c.span Char.isDigit
  if digits.isEmpty then none
  else some (digits.foldl (fun n d => 10 * n + (d.toNat - 48)) 0, c)

def versionDirective (c : Cursor) : Option (Directive × Cursor) := do
  let (major, c) ← versionPart (c.skip (· == ' '))
  if c.peek? != some '.' then none
  let (_, c) ← versionPart c.advance
  if isAtGap c.rest then some (.version major, c) else none

def handleDirective (c : Cursor) : Option (Directive × Cursor) := do
  let (handle, c) ← tagHandle (c.skip (· == ' '))
  if c.peek? != some ' ' then none
  let (text, c) ← tagText (c.skip (· == ' '))
  if isAtGap c.rest then some (.handle handle text, c) else none

/-- The directive here; the place is at its percent sign. -/
def directive (c : Cursor) : Option (Directive × Cursor) := do
  let (name, c) := c.advance.span isNameChar
  if name.isEmpty || !isAtGap c.rest then none
  let (d, c) ←
    if name == "YAML".toList then versionDirective c
    else if name == "TAG".toList then handleDirective c
    else pure (.other, c.skip (!isBreak ·))
  return (d, ← c.skipLine?)

end Montage.Yaml
