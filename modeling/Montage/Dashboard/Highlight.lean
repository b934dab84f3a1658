import Montage.Dashboard.Palette
import Montage.Dashboard.StyledText
import Montage.Text.Digit
import Montage.Text.WordChar

/-!
Highlighting a command: codecs, flags, numbers, pads and quoted parts.  Later kinds come over
earlier ones.
-/

namespace Montage.Dashboard

/-- Recognises a part of a text: given the character before a place and the text from it on, the
length of the part that begins there. -/
abbrev Recogniser := Option Char → List Char → Option Nat

/-- The places of the parts of a text, from left to right without overlap.  The number is that of
characters still inside the part found last. -/
def partsFrom (recognise : Recogniser) :
    Nat → Nat → Option Char → List Char → List (Nat × Nat)
  | _, _, _, [] => []
  | i, inside + 1, _, c :: rest => partsFrom recognise (i + 1) inside (some c) rest
  | i, 0, before, c :: rest =>
    match recognise before (c :: rest) with
    | some (n + 1) => (i, i + n + 1) :: partsFrom recognise (i + 1) n (some c) rest
    | _ => partsFrom recognise (i + 1) 0 (some c) rest

def parts (recognise : Recogniser) (s : List Char) : List (Nat × Nat) :=
  partsFrom recognise 0 0 none s

/-- No word goes on over a place with this character beside it. -/
def endsWord (c : Option Char) : Bool := !c.any Text.isWordChar

/-- The length of a text with all the conditions met. -/
def lengthIf (condition : Bool) (s : List Char) : Option Nat :=
  if condition then some s.length else none

def codecWords : List (List Char) :=
  ["libx265".toList, "libx264".toList, "aac".toList, "copy".toList]

/-- The name of a codec, as a whole word. -/
def codec : Recogniser := fun before s =>
  (codecWords.find? fun w =>
    w.isPrefixOf s && endsWord before && endsWord (s.drop w.length).head?).map List.length

/-- Characters of a flag after its first letter. -/
def isFlagChar (c : Char) : Bool := c.isAlphanum || c == '_' || c == ':' || c == '-'

/-- One or two dashes and a word that begins with a letter, behind no word and no colon. -/
def flag : Recogniser := fun before s =>
  let free := endsWord before && before != some ':'
  let dashes := (s.takeWhile (· == '-')).length
  let word := (s.drop dashes).takeWhile isFlagChar
  if free && (dashes = 1 || dashes = 2) && word.head?.any Char.isAlpha then
    some (dashes + word.length)
  else none

/-- Digits, a point and digits, as a whole word. -/
def pointNumber : Recogniser := fun before s =>
  let whole := s.takeWhile Text.isDigit
  match s.drop whole.length with
  | '.' :: rest =>
    let places := rest.takeWhile Text.isDigit
    lengthIf (endsWord before && !whole.isEmpty && !places.isEmpty
      && endsWord (rest.drop places.length).head?) (whole ++ '.' :: places)
  | _ => none

/-- Digits as a whole word, without a point and a digit behind them. -/
def wholeNumber : Recogniser := fun before s =>
  let digits := s.takeWhile Text.isDigit
  let rest := s.drop digits.length
  let goesOn := rest.head? == some '.' && (rest.drop 1).head?.any Text.isDigit
  lengthIf (endsWord before && !digits.isEmpty && endsWord rest.head? && !goesOn) digits

/-- A label in brackets. -/
def pad : Recogniser := fun _ s =>
  match s with
  | '[' :: rest =>
    let label := rest.takeWhile fun c => c.isAlphanum || c == ':'
    if !label.isEmpty && (rest.drop label.length).head? == some ']' then some (label.length + 2)
    else none
  | _ => none

/-- A part between two quotes of one kind. -/
def quotedPart : Recogniser := fun _ s =>
  match s with
  | q :: rest =>
    let inner := rest.takeWhile (· != q)
    if (q == '\'' || q == '"') && inner.length < rest.length then some (inner.length + 2) else none
  | [] => none

/-- The kinds of parts with their styles, in the order in which they are laid over the text. -/
def partStyles : List (Recogniser × String) := [
  (codec, Palette.foreground), (flag, Palette.flags), (pointNumber, Palette.numbers),
  (wholeNumber, Palette.numbers), (pad, Palette.header), (quotedPart, Palette.strings)]

/-- A command in its styles. -/
def highlight (command : String) : StyledText :=
  let t := StyledText.ofString command (Palette.bold Palette.command)
  { t with spans := partStyles.flatMap fun (recognise, style) =>
      (parts recognise t.chars).map fun (start, stop) => ⟨start, stop, style⟩ }

example : parts pointNumber "a1.5 2.5".toList = [(5, 8)] := by decide
example : parts flag "-map --y a-b".toList = [(0, 4), (5, 8)] := by decide

end Montage.Dashboard
