import Montage.Yaml.Merge

/-!
Values of nodes.

Scalars are read where they stand; a collection is entered in a round after that of the collection
around it, so that the first of several failures is the one that lies least deep.  When all nodes
have been read without a failure, the document is put together from the root.
-/

namespace Montage.Yaml

/-- The text of a scalar, or of the value that stands for a mapping under its value mark. -/
def textAt? (nodes : Nodes) : Nat → Nat → Option String
  | 0, _ => none
  | fuel + 1, i =>
    match nodes[i]? with
    | some (.scalar _ s) => some s
    | some (.mapping _ _ entries) => do
      let e ← entries.find? fun e => nodes[e.1]?.any (·.tag == .equals)
      textAt? nodes fuel e.2
    | _ => none

/-- The value of a node that is no collection by its tag. -/
def scalarAt (nodes : Nodes) (i : Nat) : Except Failure Document := do
  let s ← orMalformed (textAt? nodes (nodes.size + 1) i)
  match nodes[i]? with
  | some (.scalar tag _) => tag.value s.toList
  | some (.mapping .date _ _) => throw (.fault (.textExpected (Document.list []).kind))
  | some n => n.tag.value s.toList
  | none => throw .malformed

/-- Nodes that have been read. -/
structure Progress where
  nodes : Nodes
  /-- The values of scalars by their places; null for what is not yet read and for collections. -/
  scalars : Array Document
  /-- Whether a place has been read or is among the collections to enter. -/
  met : Array Bool
  /-- The collections to enter in the next round, the last one first. -/
  later : List Nat := []

abbrev Work := StateT Progress (Except Failure)

/-- Reads the node at a place once: a scalar now, a collection in the next round. -/
def visit (i : Nat) : Work Unit := do
  let p ← get
  match p.nodes[i]?, p.met[i]? with
  | some n, some false =>
    let p := { p with met := p.met.setIfInBounds i true }
    if n.tag.isCollection then set { p with later := i :: p.later }
    else do
      let value ← scalarAt p.nodes i
      set { p with scalars := p.scalars.setIfInBounds i value }
  | some _, some true => return
  | _, _ => throw .malformed

/-- Reads the key of a mapping, which must not be a collection. -/
def visitKey (i : Nat) : Work Unit := do
  visit i
  if (← get).nodes[i]?.any (·.tag.isCollection) then throw .malformed

def visitEntries : List (Nat × Nat) → Work Unit
  | [] => return
  | (key, value) :: rest => do
    visitKey key
    visit value
    visitEntries rest

/-- Reads items that are mappings of one entry. -/
def visitPairs : List Nat → Work Unit
  | [] => return
  | i :: rest => do
    match (← get).nodes[i]? with
    | some (.mapping _ [] [(key, value)]) =>
      visit key
      visit value
      visitPairs rest
    | _ => throw .malformed

/-- Enters a collection: its parts are read in order. -/
def enter (i : Nat) : Work Unit := do
  let p ← get
  match p.nodes[i]? with
  | some (.sequence .list items) => items.forM visit
  | some (.sequence .pairs items) => visitPairs items
  | some (.mapping .map _ _) | some (.mapping .set _ _) =>
    let (_, nodes) ← (mergeAt i).run p.nodes
    set { p with nodes := nodes }
    visitEntries ((nodes.entries? i).getD [])
  | _ => throw .malformed

/-- Enters collections round by round; each of them is entered once. -/
def enterAll : Nat → Work Unit
  | 0 => return
  | fuel + 1 => do
    let round := (← get).later.reverse
    modify fun p => { p with later := [] }
    round.forM enter
    enterAll fuel

namespace Progress

/-- The entries of the items of a list of pairs. -/
def pairEntries (p : Progress) (items : List Nat) : List (Nat × Nat) :=
  items.flatMap fun item => (p.nodes.entries? item).getD []

/-- The parts of the node at a place, none unless it is a collection. -/
def parts (p : Progress) (i : Nat) : List Nat :=
  let both (entries : List (Nat × Nat)) : List Nat := entries.flatMap fun e => [e.1, e.2]
  match p.nodes[i]? with
  | some (.sequence .list items) => items
  | some (.sequence .pairs items) => both (p.pairEntries items)
  | some (.mapping .map _ entries) | some (.mapping .set _ entries) => both entries
  | _ => []

/-- The places that are reached from others in a number of rounds. -/
def reached (p : Progress) : Nat → List Nat → List Nat → List Nat
  | 0, seen, _ => seen
  | fuel + 1, seen, frontier =>
    let fresh := ((frontier.flatMap p.parts).filter (!seen.contains ·)).eraseDups
    if fresh.isEmpty then seen else reached p fuel (seen ++ fresh) fresh

/-- Whether the node at a place holds itself. -/
def holdsItself (p : Progress) (i : Nat) : Bool := (p.reached p.nodes.size [] [i]).contains i

/-- The documents of nodes by their places, as far as they are known. -/
abbrev Known := Array (Option Document)

/-- The document at a place, put together once for each node; `around` holds the places of the
loops around it, which are looked for only when there are any.  The fuel is more than the number of
nodes. -/
def document (p : Progress) (looped : Bool) : Nat → List Nat → Nat → StateM Known Document
  | 0, _, _ => return .null
  | fuel + 1, around, i => do
    if let some (some d) := (← get)[i]? then return d
    let loops := looped && p.holdsItself i
    if loops && around.contains i then return .back i
    let part := document p looped fuel (if loops then i :: around else around)
    let pairOf (e : Nat × Nat) : StateM Known (Document × Document) := do
      return (← part e.1, ← part e.2)
    let d ← match p.nodes[i]? with
      | some (.sequence .list items) => pure (Document.list (← items.mapM part))
      | some (.sequence .pairs items) =>
        let entries ← (p.pairEntries items).mapM pairOf
        pure (.list (entries.map fun e => .pair e.1 e.2))
      | some (.mapping .map _ entries) =>
        let entries ← entries.mapM pairOf
        pure (.map (entries.foldl (fun es e => Document.insert es e.1 e.2) []))
      | some (.mapping .set _ entries) =>
        let entries ← entries.mapM pairOf
        pure (.set ((entries.foldl (fun es e => Document.insert es e.1 .null) []).map (·.1)))
      | _ => pure (p.scalars.getD i .null)
    let d := if loops then .loop i d else d
    if !looped then modify (·.setIfInBounds i (some d))
    return d

end Progress

/-- The document of a table of nodes. -/
def NodeTable.document (t : NodeTable) : Except Failure Document := do
  let size := t.nodes.size
  let start : Progress :=
    { nodes := t.nodes, scalars := Array.replicate size .null, met := Array.replicate size false }
  let work : Work Unit := do
    visit t.root
    enterAll (size + 1)
  let (_, p) ← work.run start
  return ((p.document t.looped (size + 2) [] t.root).run (Array.replicate size none)).1

end Montage.Yaml
