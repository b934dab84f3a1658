/-!
Hexadecimal text of a fixed least width.
-/

namespace Montage.Text

/-- The hexadecimal digits of a number, small letters, padded with zeros to the given width. -/
def hex (width n : Nat) : List Char :=
  let digits := Nat.toDigits 16 n
  List.replicate (width - digits.length) '0' ++ digits

/-- The same with capital letters. -/
def hexUpper (width n : Nat) : List Char := (hex width n).map Char.toUpper

example : hex 2 10 = ['0', 'a'] := by decide
example : hexUpper 4 0xe9 = ['0', '0', 'E', '9'] := by decide

end Montage.Text
