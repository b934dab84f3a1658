import Montage.Yaml.Token.Stream
import Montage.Yaml.Value

/-!
Reading a document from its text.
-/

namespace Montage.Yaml

/-- Characters that may stand in the text of a document. -/
def isTextChar (c : Char) : Bool :=
  let n := c.toNat
  n == 9 || n == 10 || n == 13 || (0x20 ≤ n && n ≤ 0x7e) || n == 0x85
    || (0xa0 ≤ n && n ≤ 0xfffd) || 0x10000 ≤ n

/-- The text with a line feed for each carriage return, a line feed after it included. -/
def unifyBreaks : List Char → List Char
  | [] => []
  | '\r' :: '\n' :: rest => '\n' :: unifyBreaks rest
  | '\r' :: rest => '\n' :: unifyBreaks rest
  | c :: rest => c :: unifyBreaks rest

/-- The one document in a text. -/
def read (s : String) : Except Failure Document := do
  let text := unifyBreaks s.toList
  if !text.all isTextChar then throw .malformed
  let (ts, stop) := tokens text
  (← NodeTable.ofTokens ts stop).document

end Montage.Yaml
