/-!
White space: the blanks and line ends of every script, and the four information separators.
-/

namespace Montage.Text

/-- Characters that trimming removes and that end a word. -/
def isBlank (c : Char) : Bool :=
  let n := c.toNat
  (9 ≤ n && n ≤ 13) || (28 ≤ n && n ≤ 32) || n == 0x85 || n == 0xa0 || n == 0x1680
    || (0x2000 ≤ n && n ≤ 0x200a) || n == 0x2028 || n == 0x2029 || n == 0x202f || n == 0x205f
    || n == 0x3000

/-- The information separators, white space that takes no room. -/
def isSeparator (c : Char) : Bool := 28 ≤ c.toNat && c.toNat ≤ 31

/-- The text without the characters of a kind at both ends. -/
def trimOf (kind : Char → Bool) (s : List Char) : List Char :=
  ((s.dropWhile kind).reverse.dropWhile kind).reverse

/-- The text without the white space at both ends. -/
def trim (s : List Char) : List Char := trimOf isBlank s

end Montage.Text
