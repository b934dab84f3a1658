/-!
Lines of a text: it is cut at every line end, a carriage return with a line feed being one.
-/

namespace Montage.Text

/-- Line feed, tabulations and feeds, the separators and the line ends beyond ASCII. -/
def isLineEnd (c : Char) : Bool :=
  let n := c.toNat
  (10 ≤ n && n ≤ 13) || (28 ≤ n && n ≤ 30) || n == 0x85 || n == 0x2028 || n == 0x2029

/-- The lines of `line ++ rest`; a line end at the very end begins no line. -/
def linesFrom (line : List Char) : List Char → List (List Char)
  | [] => if line.isEmpty then [] else [line]
  | '\r' :: '\n' :: rest => line :: linesFrom [] rest
  | c :: rest => if isLineEnd c then line :: linesFrom [] rest else linesFrom (line ++ [c]) rest

def lines (s : List Char) : List (List Char) := linesFrom [] s

example : lines "a\r\nb\n\nc\n".toList = [['a'], ['b'], [], ['c']] := by decide
example : lines [] = [] := rfl

end Montage.Text
