import Montage.Text.Half
import Montage.Text.Hex
import Montage.Text.Printable

/-!
Quoted text, as values are shown in messages: single quotes, or double quotes when the text holds
a single quote and no double one; a quote of the chosen kind, the backslash and all characters
that are not printable are escaped.
-/

namespace Montage.Text

/-- The quote that surrounds a text. -/
def quoteFor (s : List Char) : Char :=
  if s.contains '\'' && !s.contains '"' then '"' else '\''

/-- One character inside quotes. -/
def quotedChar (quote c : Char) : List Char :=
  if c == quote || c == '\\' then ['\\', c]
  else if c == '\n' then ['\\', 'n']
  else if c == '\r' then ['\\', 'r']
  else if c == '\t' then ['\\', 't']
  else if isPrintable c then [c]
  else
    let n := codePoint c
    if n ≤ 0xff then '\\' :: 'x' :: hex 2 n
    else if n ≤ 0xffff then '\\' :: 'u' :: hex 4 n
    else '\\' :: 'U' :: hex 8 n

/-- The text between its quotes. -/
def quotedChars (s : List Char) : List Char :=
  quoteFor s :: s.flatMap (quotedChar (quoteFor s)) ++ [quoteFor s]

def quoted (s : String) : String := String.ofList (quotedChars s.toList)

example : quotedChars ['i', 't', '\'', 's'] = ['"', 'i', 't', '\'', 's', '"'] := by decide

end Montage.Text
