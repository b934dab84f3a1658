import Montage.Document.Display
import Montage.Filter.Basic
import Montage.Failure

/-!
Filter sets in documents: a mapping from key names to numbers, and to truth values for switches.
A null leaves its key as it is.
-/

namespace Montage

def FilterValue.toDocument : FilterValue → Document
  | switch on => .bool on
  | amount x => .number x

/-- A filter value in a document; only a truth value suits a switch, and only a number the rest. -/
def FilterValue.ofDocument {K : Type} [FilterKey K] (label : String) (key : K) :
    Document → Except Rejection FilterValue
  | .bool b =>
    if FilterKey.isSwitch key then .ok (.switch b)
    else .error (.notNumber s!"{label}.{FilterKey.name key}")
  | .number x =>
    if FilterKey.isSwitch key then .error (.notSwitch s!"{label}.{FilterKey.name key}")
    else .ok (.amount x)
  | _ =>
    if FilterKey.isSwitch key then .error (.notSwitch s!"{label}.{FilterKey.name key}")
    else .error (.notNumber s!"{label}.{FilterKey.name key}")

namespace FilterSet

variable {K : Type} [FilterKey K] [DecidableEq K]

/-- The key that a document names. -/
def keyOf? : Document → Option K
  | .text s => FilterKey.ofName? s
  | _ => none

/-- The entries of a mapping put into a set, one after the other. -/
def putEntries (label : String) : FilterSet K → List (Document × Document) →
    Except Failure (FilterSet K)
  | s, [] => .ok s
  | s, (key, value) :: rest =>
    match keyOf? (K := K) key, value with
    | none, _ => do throw (.rejected (.unknownFilter label (← key.written)))
    | some _, .null => putEntries label s rest
    | some k, v => do
      let v ← FilterValue.ofDocument label k v
      putEntries label (s.put k (some v)) rest

/-- A set in a document, over the given one. -/
def ofDocument (label : String) (base : FilterSet K) (d : Document) :
    Except Failure (FilterSet K) :=
  match d.face with
  | .null => .ok base
  | .map entries => base.putEntries label entries
  | _ => .error (.rejected (.notMapping label))

/-- The value of every key, null where it is left out. -/
def entries (s : FilterSet K) : List (String × Document) :=
  (FilterKey.keys (K := K)).map fun k =>
    (FilterKey.name k, match s.value? k with
      | some v => v.toDocument
      | none => .null)

/-- The text of a set under a title. -/
def literal (title : String) (s : FilterSet K) : String :=
  title ++ "(" ++ ", ".intercalate (s.entries.map fun e => e.1 ++ "=" ++ e.2.literal) ++ ")"

end FilterSet

end Montage
