/-!
Words of a shell command: quoting a word, and splitting a command into its words.

Inside single quotes all characters stand for themselves; inside double quotes a backslash escapes
the double quote and itself only; outside quotes it escapes the next character.
-/

namespace Montage.Text

/-- Characters that a shell leaves alone outside quotes. -/
def isShellSafe (c : Char) : Bool :=
  c.isAlphanum || "_@%+=:,./-".toList.contains c

/-- The text with each single quote closed, written escaped, and opened again. -/
def closeSingleQuotes : List Char → List Char
  | [] => []
  | c :: rest =>
    if c == '\'' then '\'' :: '\\' :: '\'' :: '\'' :: closeSingleQuotes rest
    else c :: closeSingleQuotes rest

/-- The text with a double-quoted single quote between two single-quoted parts. -/
def swapQuotes : List Char → List Char
  | [] => []
  | c :: rest =>
    if c == '\'' then '\'' :: '"' :: '\'' :: '"' :: '\'' :: swapQuotes rest
    else c :: swapQuotes rest

/-- The text with a backslash before each double quote. -/
def escapeDoubleQuotes : List Char → List Char
  | [] => []
  | c :: rest =>
    if c == '"' then '\\' :: '"' :: escapeDoubleQuotes rest
    else c :: escapeDoubleQuotes rest

/-- A word as it is written in a command: bare when every character is safe, else in single
quotes. -/
def shellWord (s : List Char) : List Char :=
  if s.isEmpty then ['\'', '\'']
  else if s.all isShellSafe then s
  else '\'' :: swapQuotes s ++ ['\'']

/-- Characters between words. -/
def isWordGap (c : Char) : Bool :=
  c == ' ' || c == '\t' || c == '\r' || c == '\n'

/-- Where the reader of a command stands. -/
inductive WordMode where
  | bare
  | single
  | double
  | bareEscape
  | doubleEscape
  deriving DecidableEq

/-- The words of the rest of a command; `word` is the word begun, if any.  There are none when a
quotation or an escape is left open. -/
def splitWordsFrom : WordMode → Option (List Char) → List Char → Option (List (List Char))
  | .bare, none, [] => some []
  | .bare, some word, [] => some [word]
  | .single, _, [] => none
  | .double, _, [] => none
  | .bareEscape, _, [] => none
  | .doubleEscape, _, [] => none
  | .bare, word, c :: rest =>
    if isWordGap c then
      match word with
      | none => splitWordsFrom .bare none rest
      | some w => (splitWordsFrom .bare none rest).map (w :: ·)
    else if c == '\\' then splitWordsFrom .bareEscape word rest
    else if c == '\'' then splitWordsFrom .single (some (word.getD [])) rest
    else if c == '"' then splitWordsFrom .double (some (word.getD [])) rest
    else splitWordsFrom .bare (some (word.getD [] ++ [c])) rest
  | .single, word, c :: rest =>
    if c == '\'' then splitWordsFrom .bare (some (word.getD [])) rest
    else splitWordsFrom .single (some (word.getD [] ++ [c])) rest
  | .double, word, c :: rest =>
    if c == '"' then splitWordsFrom .bare (some (word.getD [])) rest
    else if c == '\\' then splitWordsFrom .doubleEscape word rest
    else splitWordsFrom .double (some (word.getD [] ++ [c])) rest
  | .bareEscape, word, c :: rest => splitWordsFrom .bare (some (word.getD [] ++ [c])) rest
  | .doubleEscape, word, c :: rest =>
    if c == '"' || c == '\\' then splitWordsFrom .double (some (word.getD [] ++ [c])) rest
    else splitWordsFrom .double (some (word.getD [] ++ ['\\', c])) rest

/-- The words of a command. -/
def splitWords (s : List Char) : Option (List (List Char)) := splitWordsFrom .bare none s

example : splitWords "a 'b c'/d \"e\\\"f\" ''".toList
    = some ["a".toList, "b c/d".toList, "e\"f".toList, []] := by decide
example : splitWords "a\\".toList = none := by decide

end Montage.Text
