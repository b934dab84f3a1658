/-!
Styled text: a text with a style of its own and spans of other styles over it.

A bell, a backspace, vertical tabulations, form feeds and carriage returns are dropped from it.
-/

namespace Montage.Dashboard

/-- A style over the characters from one place up to, not including, another. -/
structure Span where
  start : Nat
  stop : Nat
  style : String
  deriving DecidableEq

structure StyledText where
  chars : List Char := []
  style : String := ""
  spans : List Span := []
  deriving DecidableEq

namespace StyledText

/-- Control characters that a text does not keep. -/
def isDropped (c : Char) : Bool :=
  c == '\x07' || c == '\x08' || c == '\x0b' || c == '\x0c' || c == '\r'

def kept (s : String) : List Char := s.toList.filter (!isDropped ·)

/-- A text in one style. -/
def ofString (s style : String) : StyledText := { chars := kept s, style := style }

/-- The text with more at its end. -/
def add (s : String) (t : StyledText) : StyledText := { t with chars := t.chars ++ kept s }

/-- The text with more at its end, in a style. -/
def addStyled (s style : String) (t : StyledText) : StyledText :=
  if s.isEmpty then t
  else
    let chars := t.chars ++ kept s
    { t with chars := chars, spans := t.spans ++ [⟨t.chars.length, chars.length, style⟩] }

def text (t : StyledText) : String := String.ofList t.chars

end StyledText

end Montage.Dashboard
