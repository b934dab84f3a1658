/-!
Classes of characters, given by the code points at which they begin and end in turn.
-/

namespace Montage.Text

/-- Whether a character lies in the class with these boundaries: an odd number of them is at or
below its code point. -/
def inClass (boundaries : List Nat) (c : Char) : Bool :=
  boundaries.countP (fun b => decide (b ≤ c.toNat)) % 2 == 1

end Montage.Text
