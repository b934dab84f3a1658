import Montage.Document.Display
import Montage.Yaml.Style

/-!
Writing a document as a text: one entry or item on each line, items of a list under a key not
indented, keys in the order of the document.
-/

namespace Montage.Yaml

/-- The text of a binary64 value; an exponent always has a point before it. -/
def floatText (x : Binary64) : List Char :=
  match x with
  | .nan => ".nan".toList
  | .infinity s => (if s then ['-'] else []) ++ ".inf".toList
  | x =>
    let s := x.shortestChars
    if s.contains 'e' && !s.contains '.' then
      s.takeWhile (· != 'e') ++ '.' :: '0' :: s.dropWhile (· != 'e')
    else s

/-- A scalar, or an empty collection, that starts at a column. -/
def shortText (indent column : Nat) : Document → List Char
  | .null => "null".toList
  | .bool b => (if b then "true" else "false").toList
  | .number (.int n) => (integerText n).toList
  | .number (.float x) => floatText x
  | .text s => scalarText indent column s.toList
  | .date d => d.chars
  | .moment m => m.text.toList
  | .bytes bs => (Text.quotedBytes bs).toList
  | .map _ => ['\x7b', '\x7d']
  | .list _ | .set _ | .pair _ _ | .loop _ _ | .back _ => ['[', ']']

mutual

/-- What follows a key at an indentation, up to the end of its line or lines. -/
def valueLines (indent column : Nat) : Document → List Char
  | .list (d :: rest) => '\n' :: itemLines indent true (d :: rest)
  | .map (e :: rest) => '\n' :: entryLines (indent + 2) true (e :: rest)
  | d => ' ' :: shortText (indent + 2) (column + 1) d ++ ['\n']

/-- The items of a list; the first one is indented only if it begins a line. -/
def itemLines (indent : Nat) (begins : Bool) : List Document → List Char
  | [] => []
  | d :: rest =>
    (if begins then List.replicate indent ' ' else []) ++ '-' :: ' ' :: innerLines indent d
      ++ itemLines indent true rest

/-- An item of a list, behind its dash. -/
def innerLines (indent : Nat) : Document → List Char
  | .list (d :: rest) => itemLines (indent + 2) false (d :: rest)
  | .map (e :: rest) => entryLines (indent + 2) false (e :: rest)
  | d => shortText (indent + 2) (indent + 2) d ++ ['\n']

/-- The entries of a mapping; the first one is indented only if it begins a line. -/
def entryLines (indent : Nat) (begins : Bool) : List (Document × Document) → List Char
  | [] => []
  | (k, v) :: rest =>
    let key := shortText (indent + 2) indent k
    (if begins then List.replicate indent ' ' else []) ++ key ++ ':' ::
      valueLines indent (indent + key.length + 1) v ++ entryLines indent true rest

end

/-- The text of a document. -/
def write (d : Document) : String :=
  String.ofList <| match d with
    | .list (d :: rest) => itemLines 0 true (d :: rest)
    | .map (e :: rest) => entryLines 0 true (e :: rest)
    | d => shortText 2 0 d ++ ['\n']

/-- The text of a document, when its numbers can be written. -/
def written (d : Document) : Except Fault String :=
  if d.isTooLong then .error .digitsWritten else .ok (write d)

end Montage.Yaml
