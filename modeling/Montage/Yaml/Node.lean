import Montage.Yaml.Scalar
import Montage.Yaml.Token

/-!
Nodes: a document before its values are read, and its nodes from a list of tokens.

The nodes lie in a table, and a collection names its parts by their places in it.  An alias names
the place of its anchor, so that a part may stand in several collections, and even in itself.
-/

namespace Montage.Yaml

inductive Node where
  | scalar (tag : Tag) (text : String)
  | sequence (tag : Tag) (items : List Nat)
  /-- The values to be merged stand apart from the entries. -/
  | mapping (tag : Tag) (merges : List Nat) (entries : List (Nat × Nat))

/-- The nodes of a document, and the place of the first one. -/
structure NodeTable where
  nodes : Array Node
  root : Nat
  /-- Whether a node may hold itself. -/
  looped : Bool

namespace Node

def tag : Node → Tag
  | scalar tag _ | sequence tag _ | mapping tag _ _ => tag

/-- The node of a place where nothing is written. -/
def empty : Node := .scalar .null ""

/-- What is left to read. -/
structure Rest where
  tokens : List Token
  /-- What the tokens end with, when it is not the end of the text. -/
  stop : Option Failure
  nodes : Array Node := #[]
  /-- The places of the nodes with an anchor, the latest first. -/
  anchors : List (String × Nat) := []
  /-- The places of the collections whose parts are being read. -/
  opened : List Nat := []
  looped : Bool := false

/-- The texts that handles stand for. -/
abbrev Handles := List (String × String)

abbrev Reader := StateT Rest (Except Failure)

namespace Reader

def refuse {α : Type} : Reader α := throw .malformed

/-- The token that comes next, none at the end of the text. -/
def peek? : Reader (Option Token) := do
  let r ← get
  match r.tokens, r.stop with
  | [], some f => throw f
  | tokens, _ => return tokens.head?

def skip : Reader Unit := modify fun r => { r with tokens := r.tokens.drop 1 }

/-- Takes the token, which must come next. -/
def expect (t : Token) : Reader Unit := do
  if (← peek?) == some t then skip else refuse

/-- Takes the token if it comes next. -/
def accept (t : Token) : Reader Bool := do
  if (← peek?) == some t then
    skip
    return true
  else return false

/-- Whether one of the tokens comes next. -/
def isAt (ts : List Token) : Reader Bool := do return (← peek?).any ts.contains

def anchor? : Reader (Option String) := do
  match ← peek? with
  | some (.anchor name) =>
    skip
    return some name
  | _ => return none

/-- The full name of a tag that comes next. -/
def tag? (handles : Handles) : Reader (Option String) := do
  match ← peek? with
  | some (.tag none text) =>
    skip
    return some text
  | some (.tag (some handle) text) =>
    skip
    match handles.lookup handle with
    | some start => return some (start ++ text)
    | none => refuse
  | _ => return none

/-- The place of a new node, under an anchor if there is one. -/
def place (anchor : Option String) (n : Node) : Reader Nat :=
  modifyGet fun r =>
    let i := r.nodes.size
    (i, { r with nodes := r.nodes.push n, anchors := anchor.toList.map (·, i) ++ r.anchors })

/-- The place of a collection, whose parts are read after it has got its place. -/
def placeWith (anchor : Option String) (read : Reader Node) : Reader Nat := do
  let i ← place anchor empty
  modify fun r => { r with opened := i :: r.opened }
  let n ← read
  modify fun r => { r with nodes := r.nodes.setIfInBounds i n, opened := r.opened.drop 1 }
  return i

/-- The place of an anchor. -/
def named (name : String) : Reader Nat := do
  let r ← get
  match r.anchors.lookup name with
  | some i =>
    set { r with looped := r.looped || r.opened.contains i }
    return i
  | none => refuse

/-- A mapping of the entries whose keys are no merge keys, and of the values of those that are. -/
def mappingOf (tag : Tag) (entries : List (Nat × Nat)) : Reader Node := do
  let nodes := (← get).nodes
  let isMerge (e : Nat × Nat) : Bool := nodes[e.1]?.any (·.tag == .merge)
  return .mapping tag ((entries.filter isMerge).map (·.2)) (entries.filter (!isMerge ·))

end Reader

/-- The tag of a collection or of a quoted scalar: the given one, or the usual one. -/
def tagOr (usual : Tag) : Option String → Tag
  | none => usual
  | some name => if name == "!" then usual else Tag.ofName name

/-- The scalar with a text; without a tag a plain one is of the kind of its form. -/
def ofScalar (tag : Option String) (plain : Bool) (text : String) : Node :=
  if (plain && tag.isNone) || tag == some "!" then .scalar (Tag.ofPlain text.toList) text
  else .scalar (tagOr .text tag) text

open Reader

mutual

/-- The place of the node that comes next.  A block collection stands only where one may, and the
items of a mapping's value need not be indented. -/
def next (handles : Handles) : Nat → Bool → Bool → Reader Nat
  | 0, _, _ => refuse
  | fuel + 1, inBlock, flatItems => do
    if let some (.alias name) ← peek? then
      skip
      return ← named name
    let before ← anchor?
    let tag ← tag? handles
    let after ← if before.isNone then anchor? else pure none
    let anchor := before.or after
    let taken := (← get).anchors
    if anchor.any fun name => (taken.lookup name).isSome then refuse
    let list (read : Reader (List Nat)) : Reader Nat :=
      placeWith anchor do return .sequence (tagOr .list tag) (← read)
    let map (read : Reader (List (Nat × Nat))) : Reader Nat :=
      placeWith anchor do mappingOf (tagOr .map tag) (← read)
    match ← peek? with
    | some .item =>
      if flatItems then list (flatSequence handles fuel)
      else if anchor.isSome || tag.isSome then place anchor (ofScalar tag true "")
      else refuse
    | some (.scalar plain text) =>
      skip
      place anchor (ofScalar tag plain text)
    | some .flowSequence =>
      skip
      list (flowSequence handles fuel true)
    | some .flowMapping =>
      skip
      map (flowMapping handles fuel true)
    | t =>
      if inBlock && t == some .blockSequence then
        skip
        list (blockSequence handles fuel)
      else if inBlock && t == some .blockMapping then
        skip
        map (blockMapping handles fuel)
      else if anchor.isSome || tag.isSome then place anchor (ofScalar tag true "")
      else refuse

/-- The node that comes next, empty if one of the tokens comes instead. -/
def nextOr (handles : Handles) : Nat → List Token → Bool → Bool → Reader Nat
  | 0, _, _, _ => refuse
  | fuel + 1, ends, inBlock, flatItems => do
    if ← isAt ends then return ← place none empty
    next handles fuel inBlock flatItems

/-- The items of a block up to its end. -/
def blockSequence (handles : Handles) : Nat → Reader (List Nat)
  | 0 => refuse
  | fuel + 1 => do
    if ← accept .item then
      let item ← nextOr handles fuel [.item, .blockEnd] true false
      return item :: (← blockSequence handles fuel)
    expect .blockEnd
    return []

/-- The items of a mapping's value that are not indented. -/
def flatSequence (handles : Handles) : Nat → Reader (List Nat)
  | 0 => refuse
  | fuel + 1 => do
    if ← accept .item then
      let item ← nextOr handles fuel [.item, .key, .value, .blockEnd] true false
      return item :: (← flatSequence handles fuel)
    return []

/-- The entries of a block up to its end. -/
def blockMapping (handles : Handles) : Nat → Reader (List (Nat × Nat))
  | 0 => refuse
  | fuel + 1 => do
    if ← accept .key then
      let key ← nextOr handles fuel [.key, .value, .blockEnd] true true
      let value ← valueOr handles fuel [.key, .value, .blockEnd] true
      return (key, value) :: (← blockMapping handles fuel)
    expect .blockEnd
    return []

/-- The value behind a colon, empty without one. -/
def valueOr (handles : Handles) : Nat → List Token → Bool → Reader Nat
  | 0, _, _ => refuse
  | fuel + 1, ends, inBlock => do
    if ← accept .value then nextOr handles fuel ends inBlock inBlock
    else place none empty

/-- The items of a flow collection up to its end; an entry counts as a mapping of its own. -/
def flowSequence (handles : Handles) : Nat → Bool → Reader (List Nat)
  | 0, _ => refuse
  | fuel + 1, first => do
    if ← accept .flowSequenceEnd then return []
    if !first then expect .comma
    if ← accept .flowSequenceEnd then return []
    let item ←
      if ← accept .key then
        placeWith none do
          let key ← nextOr handles fuel [.value, .comma, .flowSequenceEnd] false false
          let value ← valueOr handles fuel [.comma, .flowSequenceEnd] false
          mappingOf .map [(key, value)]
      else next handles fuel false false
    return item :: (← flowSequence handles fuel false)

/-- The entries of a flow collection up to its end; a node alone is a key without a value. -/
def flowMapping (handles : Handles) : Nat → Bool → Reader (List (Nat × Nat))
  | 0, _ => refuse
  | fuel + 1, first => do
    if ← accept .flowMappingEnd then return []
    if !first then expect .comma
    if ← accept .flowMappingEnd then return []
    let entry ←
      if ← accept .key then
        let key ← nextOr handles fuel [.value, .comma, .flowMappingEnd] false false
        let value ← valueOr handles fuel [.comma, .flowMappingEnd] false
        pure (key, value)
      else
        let key ← next handles fuel false false
        pure (key, ← place none empty)
    return entry :: (← flowMapping handles fuel false)

end

/-- The handles that directives declare, when each is declared once and the version is known. -/
def handlesOf : Bool → Handles → List Directive → Option Handles
  | _, handles, [] => some handles
  | versioned, handles, .version major :: rest =>
    if versioned || major != 1 then none else handlesOf true handles rest
  | versioned, handles, .handle handle start :: rest =>
    if (handles.lookup handle).isSome then none
    else handlesOf versioned ((handle, start) :: handles) rest
  | versioned, handles, .other :: rest => handlesOf versioned handles rest

/-- The directives at the start of tokens, and the tokens after them. -/
def splitDirectives : List Token → List Directive × List Token
  | .directive d :: rest =>
    let (more, rest) := splitDirectives rest
    (d :: more, rest)
  | rest => ([], rest)

def usualHandles : Handles := [("!", "!"), ("!!", "tag:yaml.org,2002:")]

/-- The place of the root of the document at the start of the tokens. -/
def content (handles : Handles) : Reader Nat := do
  next handles (3 * (← get).tokens.length + 3) true false

/-- The place of the root of the first document. -/
def first : Reader Nat := do
  match ← peek? with
  | none => place none empty
  | some (.directive _) | some .documentStart => do
    let (directives, rest) := splitDirectives (← get).tokens
    modify fun r => { r with tokens := rest }
    let t ← peek?
    match handlesOf false [] directives with
    | none => refuse
    | some handles =>
      if t != some .documentStart then refuse
      skip
      match ← peek? with
      | none | some (.directive _) | some .documentStart | some .documentEnd => place none empty
      | some _ => content (handles ++ usualHandles)
  | some _ => content usualHandles

/-- Passes over the ends of documents, behind which nothing may come. -/
def close : Reader Unit := do
  modify fun r => { r with tokens := r.tokens.dropWhile (· == .documentEnd) }
  if (← peek?).isSome then refuse

end Node

/-- The nodes of the one document in the tokens; without any token it is empty.  The tokens may end
with a failure. -/
def NodeTable.ofTokens (tokens : List Token) (stop : Option Failure) :
    Except Failure NodeTable := do
  let read : Node.Reader Nat := do
    let root ← Node.first
    Node.close
    return root
  let (root, r) ← read.run { tokens := tokens, stop := stop }
  return ⟨r.nodes, root, r.looped⟩

end Montage.Yaml
