/-!
Bytes written in base sixty-four.

Four characters stand for three bytes.  Characters outside the alphabet do not count.  A group may
end with padding behind its second or third character; a padding that completes a group ends the
text, whatever follows.
-/

namespace Montage.Text

/-- The value of a character of the alphabet. -/
def sixtyFourValue? (c : Char) : Option Nat :=
  if 'A' ≤ c ∧ c ≤ 'Z' then some (c.toNat - 65)
  else if 'a' ≤ c ∧ c ≤ 'z' then some (c.toNat - 71)
  else if c.isDigit then some (c.toNat + 4)
  else if c = '+' then some 62
  else if c = '/' then some 63
  else none

/-- The bytes of a text.  The group at its start has `held` characters already, whose bits without
a byte yet are `bits`; `pads` of its paddings came directly before. -/
def base64From (held bits pads : Nat) : List Char → Option (List UInt8)
  | [] => if held = 0 then some [] else none
  | c :: rest =>
    if c = '=' then
      if held < 2 then base64From held bits pads rest
      else if 4 ≤ held + pads + 1 then some []
      else base64From held bits (pads + 1) rest
    else
      match sixtyFourValue? c with
      | none => base64From held bits pads rest
      | some v =>
        match held with
        | 0 => base64From 1 v 0 rest
        | 1 => (base64From 2 (v % 16) 0 rest).map (UInt8.ofNat (4 * bits + v / 16) :: ·)
        | 2 => (base64From 3 (v % 4) 0 rest).map (UInt8.ofNat (16 * bits + v / 4) :: ·)
        | _ => (base64From 0 0 0 rest).map (UInt8.ofNat (64 * bits + v) :: ·)

/-- The bytes that a text stands for, when its groups are complete. -/
def base64? (s : List Char) : Option (List UInt8) := base64From 0 0 0 s

example : base64? "SGk=".toList = some [72, 105] := by decide
example : base64? "SGkh".toList = some [72, 105, 33] := by decide
example : base64? "SGk".toList = none := by decide

end Montage.Text
