import Montage.Document.Basic

/-!
The text of a value in messages: a text on its own stands as it is, inside a collection it is
quoted.  A loop inside itself is shown by three dots between its brackets.
-/

namespace Montage

/-- One byte between quotes. -/
def Text.quotedByte (quote : Char) (b : UInt8) : List Char :=
  let c := Char.ofNat b.toNat
  if c == quote || c == '\\' then ['\\', c]
  else if c == '\n' then ['\\', 'n']
  else if c == '\r' then ['\\', 'r']
  else if c == '\t' then ['\\', 't']
  else if 32 ≤ b.toNat && b.toNat < 127 then [c]
  else '\\' :: 'x' :: Text.hex 2 b.toNat

/-- Bytes as quoted text behind a letter. -/
def Text.quotedBytes (bs : List UInt8) : String :=
  let quote := Text.quoteFor (bs.map fun b => Char.ofNat b.toNat)
  String.ofList ('b' :: quote :: bs.flatMap (Text.quotedByte quote) ++ [quote])

namespace Document

/-- The brackets of a collection. -/
def brackets : Document → String × String
  | map _ => ("\x7b", "\x7d")
  | _ => ("[", "]")

mutual

/-- The text of a value inside a collection, the loops around it given with their brackets. -/
def literalIn (around : List (Nat × (String × String))) : Document → String
  | null => "None"
  | bool b => if b then "True" else "False"
  | number x => x.text
  | text s => Text.quoted s
  | date d => d.literal
  | moment m => m.literal
  | bytes bs => Text.quotedBytes bs
  | list items => "[" ++ ", ".intercalate (literalsIn around items) ++ "]"
  | map entries => "\x7b" ++ ", ".intercalate (entryLiteralsIn around entries) ++ "\x7d"
  | set items =>
    if items.isEmpty then "set()"
    else "\x7b" ++ ", ".intercalate (literalsIn around items) ++ "\x7d"
  | pair key value => "(" ++ literalIn around key ++ ", " ++ literalIn around value ++ ")"
  | loop n body =>
    match around.lookup n with
    | some (first, last) => first ++ "..." ++ last
    | none => literalIn ((n, body.brackets) :: around) body
  | back n =>
    let (first, last) := (around.lookup n).getD ("[", "]")
    first ++ "..." ++ last

def literalsIn (around : List (Nat × (String × String))) : List Document → List String
  | [] => []
  | d :: rest => literalIn around d :: literalsIn around rest

def entryLiteralsIn (around : List (Nat × (String × String))) :
    List (Document × Document) → List String
  | [] => []
  | (k, v) :: rest =>
    (literalIn around k ++ ": " ++ literalIn around v) :: entryLiteralsIn around rest

end

/-- The text of a value inside a collection. -/
def literal (d : Document) : String := literalIn [] d

/-- The text of a value on its own. -/
def display : Document → String
  | text s => s
  | date d => d.text
  | moment m => m.text
  | d => d.literal

mutual

/-- Whether a whole number in a value has more digits than are written. -/
def isTooLong : Document → Bool
  | number (.int n) => decide (Nat.pow 10 Fault.digitLimit ≤ n.natAbs)
  | list items | set items => anyTooLong items
  | map entries => anyEntryTooLong entries
  | pair key value => isTooLong key || isTooLong value
  | loop _ body => isTooLong body
  | _ => false

def anyTooLong : List Document → Bool
  | [] => false
  | d :: rest => isTooLong d || anyTooLong rest

def anyEntryTooLong : List (Document × Document) → Bool
  | [] => false
  | (k, v) :: rest => isTooLong k || isTooLong v || anyEntryTooLong rest

end

/-- The text of a value on its own, when its numbers can be written. -/
def written (d : Document) : Except Fault String :=
  if d.isTooLong then .error .digitsWritten else .ok d.display

end Document

end Montage
