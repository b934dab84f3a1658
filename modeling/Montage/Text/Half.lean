/-!
Halves of surrogate pairs.

An escaped form of a text may name half of a pair alone, which is a code point but no character.
A private character stands for it in the text: the halves in their order, from U+10E000 on.
-/

namespace Montage.Text

/-- The first half, and the character that stands for it. -/
def firstHalf : Nat := 0xd800

def firstStandIn : Nat := 0x10e000

/-- The number of halves. -/
def halfCount : Nat := 0x800

/-- The character of a code point, a stand-in for a half. -/
def ofCodePoint (n : Nat) : Char :=
  if firstHalf ≤ n ∧ n < firstHalf + halfCount then Char.ofNat (n - firstHalf + firstStandIn)
  else Char.ofNat n

/-- The half that a character stands for. -/
def half? (c : Char) : Option Nat :=
  if firstStandIn ≤ c.toNat ∧ c.toNat < firstStandIn + halfCount then
    some (c.toNat - firstStandIn + firstHalf)
  else none

/-- The code point of a character or of the half that it stands for. -/
def codePoint (c : Char) : Nat := (half? c).getD c.toNat

example : codePoint (ofCodePoint 0xd83c) = 0xd83c := by decide
example : codePoint (ofCodePoint 0x1f300) = 0x1f300 := by decide

end Montage.Text
