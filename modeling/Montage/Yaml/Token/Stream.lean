import Montage.Yaml.Token.Block
import Montage.Yaml.Token.Property

/-!
The tokens of a text.

Blocks open and close with the indentation.  A key before a colon is known as a key only when the
colon comes: until then its place is kept as a candidate, at most one for each flow collection that
is open, and it must stand on the line of its colon.
-/

namespace Montage.Yaml

/-- A place that a colon may turn into a key. -/
structure KeyCandidate where
  /-- The number of tokens before it. -/
  position : Nat
  /-- It can be nothing else, since it stands in the column of its block. -/
  required : Bool
  index : Nat
  line : Nat
  column : Nat

structure TokenStream where
  cursor : Cursor
  /-- The tokens so far, the latest first. -/
  tokens : List Token := []
  /-- Their number. -/
  count : Nat := 0
  /-- The column of the innermost block, negative outside of all blocks. -/
  indent : Int := -1
  outerIndents : List Int := []
  /-- Whether a key may start here. -/
  keyAllowed : Bool := true
  candidate : Option KeyCandidate := none
  /-- The candidates around each open flow collection, the innermost first. -/
  outerCandidates : List (Option KeyCandidate) := []

namespace TokenStream

def inFlow (s : TokenStream) : Bool := !s.outerCandidates.isEmpty

def push (t : Token) (s : TokenStream) : TokenStream :=
  { s with tokens := t :: s.tokens, count := s.count + 1 }

/-- Inserts tokens, the latest first, at a place before the end. -/
def insertAt (position : Nat) (new : List Token) (s : TokenStream) : TokenStream :=
  let n := s.count - position
  { s with tokens := s.tokens.take n ++ new ++ s.tokens.drop n, count := s.count + new.length }

/-- Opens a block at a column, unless one is open there. -/
def opensBlock (column : Nat) (s : TokenStream) : Bool := decide (s.indent < column)

def openBlock (column : Nat) (s : TokenStream) : TokenStream :=
  { s with indent := column, outerIndents := s.indent :: s.outerIndents }

/-- Closes the blocks that lie deeper than a column. -/
def closeBlocks (column : Int) (s : TokenStream) : TokenStream :=
  if s.inFlow then s else go s.outerIndents s
where
  go : List Int → TokenStream → TokenStream
    | [], s => s
    | outer :: rest, s =>
      if column < s.indent then
        go rest { s.push .blockEnd with indent := outer, outerIndents := rest }
      else s

/-- Whether a candidate can no longer become a key. -/
def isStale (c : Cursor) (k : KeyCandidate) : Bool :=
  k.line != c.line || decide (1024 < c.index - k.index)

/-- Drops stale candidates; one that had to be a key is an error. -/
def dropStale (s : TokenStream) : Option TokenStream :=
  let all := s.candidate :: s.outerCandidates
  let stale (k : Option KeyCandidate) := k.any (isStale s.cursor)
  if all.any fun k => stale k && k.any (·.required) then none
  else
    let fresh (k : Option KeyCandidate) := if stale k then none else k
    some { s with candidate := fresh s.candidate, outerCandidates := s.outerCandidates.map fresh }

/-- Drops the innermost candidate; one that had to be a key is an error. -/
def dropCandidate (s : TokenStream) : Option TokenStream :=
  if s.candidate.any (·.required) then none else some { s with candidate := none }

/-- Makes this place a candidate, if a key may start here. -/
def saveCandidate (s : TokenStream) : Option TokenStream :=
  if s.keyAllowed then do
    let s ← s.dropCandidate
    let c := s.cursor
    return { s with candidate := some {
      position := s.count, required := !s.inFlow && s.indent == c.column
      index := c.index, line := c.line, column := c.column } }
  else some s

/-- Skips blanks, comments and line ends up to the next token; a new line of a block may start
with a key. -/
def skipBlank : Nat → TokenStream → TokenStream
  | 0, s => s
  | fuel + 1, s =>
    let c := s.cursor.skip (· == ' ')
    let c := if c.peek? == some '#' then c.skip (!isBreak ·) else c
    match c.takeBreak? with
    | some (_, c) => skipBlank fuel { s with cursor := c, keyAllowed := s.keyAllowed || !s.inFlow }
    | none => { s with cursor := c }

/-- A mark of one character. -/
def takeMark (t : Token) (s : TokenStream) : TokenStream :=
  { s.push t with cursor := s.cursor.advance }

/-- A token that begins a node. -/
def takeNode (read : Cursor → Option (Token × Cursor)) (s : TokenStream) :
    Option TokenStream := do
  let s ← s.saveCandidate
  let (t, c) ← read s.cursor
  return { s.push t with cursor := c, keyAllowed := false }

def takePlain (fuel : Nat) (s : TokenStream) : Option TokenStream := do
  let s ← s.saveCandidate
  let (text, broke, c) := plainScalar s.inFlow (s.indent + 1) fuel s.cursor
  return { s.push (.scalar true (String.ofList text)) with cursor := c, keyAllowed := broke }

def takeQuoted (quote : Char) (fuel : Nat) (s : TokenStream) : Except Failure TokenStream := do
  let s ← orMalformed s.saveCandidate
  let (text, c) ← quotedScalar quote fuel s.cursor
  return { s.push (.scalar false (String.ofList text)) with cursor := c, keyAllowed := false }

def takeBlockScalar (folded : Bool) (fuel : Nat) (s : TokenStream) : Option TokenStream := do
  let s ← s.dropCandidate
  let (text, c) ← blockScalar folded s.indent fuel s.cursor
  return { s.push (.scalar false (String.ofList text)) with cursor := c, keyAllowed := true }

def takeDirective (s : TokenStream) : Option TokenStream := do
  let s ← (s.closeBlocks (-1)).dropCandidate
  let (d, c) ← Yaml.directive s.cursor
  return { s.push (.directive d) with cursor := c, keyAllowed := false }

def takeMarker (t : Token) (s : TokenStream) : Option TokenStream := do
  let s ← (s.closeBlocks (-1)).dropCandidate
  return { s.push t with cursor := s.cursor.advanceBy 3, keyAllowed := false }

def takeFlowStart (t : Token) (s : TokenStream) : Option TokenStream := do
  let s ← s.saveCandidate
  return { s.takeMark t with
    keyAllowed := true, candidate := none, outerCandidates := s.candidate :: s.outerCandidates }

def takeFlowEnd (t : Token) (s : TokenStream) : Option TokenStream := do
  let s ← s.dropCandidate
  match s.outerCandidates with
  | [] => none
  | k :: rest =>
    return { s.takeMark t with keyAllowed := false, candidate := k, outerCandidates := rest }

def takeComma (s : TokenStream) : Option TokenStream := do
  let s ← s.dropCandidate
  return { s.takeMark .comma with keyAllowed := true }

/-- Opens a block of the given kind here, when a block may start. -/
def enterBlock (start : Token) (s : TokenStream) : Option TokenStream :=
  if s.inFlow then some s
  else if !s.keyAllowed then none
  else if s.opensBlock s.cursor.column then some ((s.openBlock s.cursor.column).push start)
  else some s

def takeItem (s : TokenStream) : Option TokenStream := do
  let s ← s.enterBlock .blockSequence
  let s ← s.dropCandidate
  return { s.takeMark .item with keyAllowed := true }

def takeKey (s : TokenStream) : Option TokenStream := do
  let s ← s.enterBlock .blockMapping
  let s ← s.dropCandidate
  return { s.takeMark .key with keyAllowed := !s.inFlow }

/-- A colon: the candidate, if there is one, was a key, and began a block mapping if none is open
in its column. -/
def takeValue (s : TokenStream) : Option TokenStream :=
  match s.candidate with
  | some k =>
    let s := { s with candidate := none, keyAllowed := false }
    if !s.inFlow && s.opensBlock k.column then
      some (((s.insertAt k.position [.key, .blockMapping]).openBlock k.column).takeMark .value)
    else some ((s.insertAt k.position [.key]).takeMark .value)
  | none => do
    let s ← s.enterBlock .blockMapping
    return { s.takeMark .value with keyAllowed := !s.inFlow }

/-- Takes the token here, if it is no quoted scalar; `fuel` is more than the number of characters
left. -/
def takeUnquoted (ch : Char) (fuel : Nat) (s : TokenStream) : Option TokenStream :=
  let c := s.cursor
  let apart := s.inFlow || isApart (c.rest.drop 1)
  if ch == '%' && c.column == 0 then s.takeDirective
  else if c.column == 0 && c.atWord '-' then s.takeMarker .documentStart
  else if c.column == 0 && c.atWord '.' then s.takeMarker .documentEnd
  else if ch == '[' then s.takeFlowStart .flowSequence
  else if ch == '\x7b' then s.takeFlowStart .flowMapping
  else if ch == ']' then s.takeFlowEnd .flowSequenceEnd
  else if ch == '\x7d' then s.takeFlowEnd .flowMappingEnd
  else if ch == ',' then s.takeComma
  else if ch == '-' && isApart (c.rest.drop 1) then s.takeItem
  else if ch == '?' && apart then s.takeKey
  else if ch == ':' && apart then s.takeValue
  else if ch == '*' then
    s.takeNode fun c => (nodeName c).map fun (name, c) => (.alias name, c)
  else if ch == '&' then
    s.takeNode fun c => (nodeName c).map fun (name, c) => (.anchor name, c)
  else if ch == '!' then s.takeNode tagToken
  else if ch == '|' && !s.inFlow then s.takeBlockScalar false fuel
  else if ch == '>' && !s.inFlow then s.takeBlockScalar true fuel
  else if startsPlain s.inFlow c.rest then s.takePlain fuel
  else none

/-- Takes the token here. -/
def takeToken (ch : Char) (fuel : Nat) (s : TokenStream) : Except Failure TokenStream :=
  if ch == '\'' || ch == '"' then s.takeQuoted ch fuel else orMalformed (s.takeUnquoted ch fuel)

/-- A step: the stream with one more token, or at the end of the text its tokens. -/
def step (fuel : Nat) (s : TokenStream) : Except Failure (TokenStream ⊕ List Token) := do
  let s ← orMalformed (s.skipBlank fuel).dropStale
  let s := s.closeBlocks s.cursor.column
  match s.cursor.peek? with
  | none =>
    let s ← orMalformed (s.closeBlocks (-1)).dropCandidate
    return .inr s.tokens.reverse
  | some ch => return .inl (← s.takeToken ch fuel)

/-- The tokens that are settled: those before the first place that may still turn into a key. -/
def settled (s : TokenStream) : List Token :=
  let pending := (s.candidate :: s.outerCandidates).filterMap
    (·.filter (!isStale s.cursor ·))
  s.tokens.reverse.take ((pending.map (·.position)).foldl min s.count)

/-- All tokens, or those before a failure and the failure.  Each takes one character at least, so
the fuel stays greater than the number of characters left. -/
def run : Nat → TokenStream → List Token × Option Failure
  | 0, s => (s.settled, some .malformed)
  | fuel + 1, s =>
    match s.step fuel with
    | .ok (.inl next) => run fuel next
    | .ok (.inr all) => (all, none)
    | .error f => (s.settled, some f)

end TokenStream

/-- The tokens of a text, a byte order mark at its start apart; with a failure only those before
it. -/
def tokens (text : List Char) : List Token × Option Failure :=
  let start : Cursor := ⟨text, 0, 0, 0⟩
  let start := if start.peek? == some '\ufeff' then start.advance else start
  TokenStream.run (text.length + 2) { cursor := start }

end Montage.Yaml
