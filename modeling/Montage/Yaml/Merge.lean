import Montage.Yaml.Node

/-!
Carrying out merges.

The entries of a merged mapping come before those of the mapping that merges it, which win over
them.  Of several mappings merged at once the last one comes first.  Each merge is taken out of its
mapping before it is carried out, so that mappings that merge one another come to an end.
-/

namespace Montage.Yaml

abbrev Nodes := Array Node

/-- Work on a table of nodes. -/
abbrev Merging := StateT Nodes (Except Failure)

namespace Nodes

/-- The entries of the mapping at a place. -/
def entries? (nodes : Nodes) (i : Nat) : Option (List (Nat × Nat)) :=
  match nodes[i]? with
  | some (.mapping _ _ entries) => some entries
  | _ => none

/-- The first merge of the mapping at a place, and the table without it. -/
def takeMerge? (nodes : Nodes) (i : Nat) : Option (Nat × Nodes) :=
  match nodes[i]? with
  | some (.mapping tag (v :: rest) entries) =>
    some (v, nodes.setIfInBounds i (.mapping tag rest entries))
  | _ => none

/-- The table with entries put before those of the mapping at a place. -/
def prepend (nodes : Nodes) (i : Nat) (before : List (Nat × Nat)) : Nodes :=
  match nodes[i]? with
  | some (.mapping tag merges entries) =>
    nodes.setIfInBounds i (.mapping tag merges (before ++ entries))
  | _ => nodes

/-- The table with a value mark at a place turned into a text. -/
def settleKey (nodes : Nodes) (i : Nat) : Nodes :=
  match nodes[i]? with
  | some (.scalar .equals s) => nodes.setIfInBounds i (.scalar .text s)
  | some (.mapping .equals merges entries) =>
    nodes.setIfInBounds i (.mapping .text merges entries)
  | _ => nodes

/-- The table with the value marks among some keys turned into texts. -/
def settleKeys (nodes : Nodes) (entries : List (Nat × Nat)) : Nodes :=
  entries.foldl (fun nodes e => nodes.settleKey e.1) nodes

/-- The number of merges in a table. -/
def mergeCount (nodes : Nodes) : Nat :=
  nodes.foldl (fun n node =>
    match node with
    | .mapping _ merges _ => n + merges.length
    | _ => n) 0

end Nodes

mutual

/-- Carries out the merges of the mapping at a place, after some entries that were merged before.
The fuel is more than the number of merges in the table. -/
def carryOut : Nat → Nat → List (Nat × Nat) → Merging Unit
  | 0, _, _ => throw .malformed
  | fuel + 1, i, merged => do
    match (← get).takeMerge? i with
    | some (v, nodes) =>
      set nodes
      let more ← mergedFrom fuel v
      carryOut fuel i (merged ++ more)
    | none =>
      modify fun nodes => (nodes.settleKeys ((nodes.entries? i).getD [])).prepend i merged

/-- The entries that a merged node gives: those of a mapping, or of the mappings in a list. -/
def mergedFrom : Nat → Nat → Merging (List (Nat × Nat))
  | 0, _ => throw .malformed
  | fuel + 1, v => do
    match (← get)[v]? with
    | some (.mapping _ _ _) => entriesOf fuel v
    | some (.sequence _ items) =>
      let all ← items.mapM (entriesOf fuel)
      return all.reverse.flatten
    | _ => throw .malformed

/-- The entries of the mapping at a place, its merges carried out. -/
def entriesOf : Nat → Nat → Merging (List (Nat × Nat))
  | 0, _ => throw .malformed
  | fuel + 1, i => do
    match (← get)[i]? with
    | some (.mapping _ _ _) =>
      carryOut fuel i []
      return ((← get).entries? i).getD []
    | _ => throw .malformed

end

/-- Carries out the merges of the mapping at a place. -/
def mergeAt (i : Nat) : Merging Unit := do
  carryOut (4 * (← get).mergeCount + 4) i []

end Montage.Yaml
