import Montage.Text.Hex
import Montage.Yaml.Scalar
import Montage.Yaml.Token.Plain

/-!
Writing a text as a scalar.

A text is plain when it then reads back as the same text, else it stands between single quotes,
else, with characters beyond printable ASCII, between double quotes.  A text goes on in the next
line at a blank beyond column 80.
-/

namespace Montage.Yaml

inductive Style where
  | plain | single | double
  deriving DecidableEq

/-- Characters that a scalar shows as they are. -/
def isShown (c : Char) : Bool := c == '\n' || (0x20 ≤ c.toNat && c.toNat ≤ 0x7e)

/-- Whether a blank, a tab or a line end stands at the start, or nothing at all. -/
def isGapAt (s : List Char) : Bool := isApart s || s.head? == some '\r'

/-- Whether the first character of a text gives it another meaning. -/
def marksStart : List Char → Bool
  | [] => false
  | c :: rest =>
    ['#', ',', '[', ']', '\x7b', '\x7d', '&', '*', '!', '|', '>', '\'', '"', '%', '@',
      '\x60'].contains c
      || (['?', ':', '-'].contains c && isGapAt rest)

/-- Whether a character after the first gives a text another meaning: a colon before a gap, a
number sign behind one. -/
def marksInside : Bool → List Char → Bool
  | _, [] => false
  | afterGap, c :: rest =>
    (c == ':' && isGapAt rest) || (c == '#' && afterGap)
      || marksInside (isSpace c || isBreak c || c == '\r') rest

/-- Whether a text begins like a line that begins or ends a document. -/
def startsLikeMarker (s : List Char) : Bool :=
  s.take 3 == ['-', '-', '-'] || s.take 3 == ['.', '.', '.']

/-- Whether a character of one class comes directly before one of another. -/
def hasPair (p q : Char → Bool) : List Char → Bool
  | a :: b :: rest => (p a && q b) || hasPair p q (b :: rest)
  | _ => false

/-- Whether a text keeps its meaning without quotes. -/
def allowsPlain (s : List Char) : Bool :=
  s.all (fun c => isShown c && !isBreak c) && s.head? != some ' ' && s.getLast? != some ' '
    && !startsLikeMarker s && !marksStart s
    && !marksInside (s.head?.any fun c => isSpace c || isBreak c) (s.drop 1)

/-- Whether a text keeps its meaning between single quotes. -/
def allowsSingle (s : List Char) : Bool :=
  s.all isShown && !hasPair (· == ' ') isBreak s && !hasPair isBreak (· == ' ') s

/-- The style in which a text is written. -/
def styleOf (s : List Char) : Style :=
  if Tag.ofPlain s == .text && allowsPlain s then .plain
  else if allowsSingle s then .single
  else .double

/-- The column beyond which a text is folded. -/
def foldColumn : Nat := 80

/-- A line end and the blanks up to a column. -/
def newLine (indent : Nat) : List Char := '\n' :: List.replicate indent ' '

/-- The runs of blanks, of line ends and of other characters. -/
def runs (s : List Char) : List (List Char) :=
  s.splitBy fun a b => (a == ' ') == (b == ' ') && (a == '\n') == (b == '\n')

/-- A text without quotes, from a column on; a single blank may fold. -/
def plainLines (indent column : Nat) : List (List Char) → List Char
  | [] => []
  | run :: rest =>
    if run == [' '] && foldColumn < column then newLine indent ++ plainLines indent indent rest
    else run ++ plainLines indent (column + run.length) rest

/-- A text between single quotes, from a column on: quotes are doubled, line ends have one more
before them, and a single blank inside may fold. -/
def singleLines (indent column : Nat) (first : Bool) : List (List Char) → List Char
  | [] => []
  | run :: rest =>
    if run.head? == some '\n' then
      '\n' :: run ++ List.replicate indent ' ' ++ singleLines indent indent false rest
    else if run == [' '] && foldColumn < column && !first && !rest.isEmpty then
      newLine indent ++ singleLines indent indent false rest
    else
      let written := run.flatMap fun c => if c == '\'' then ['\'', '\''] else [c]
      written ++ singleLines indent (column + written.length) false rest

/-- The escape of a character between double quotes, for one that is not shown as it is. -/
def escapeOf? (c : Char) : Option (List Char) :=
  let names := [('\x00', '0'), ('\x07', 'a'), ('\x08', 'b'), ('\t', 't'), ('\n', 'n'),
    ('\x0b', 'v'), ('\x0c', 'f'), ('\r', 'r'), ('\x1b', 'e'), ('"', '"'), ('\\', '\\'),
    ('\x85', 'N'), ('\xa0', '_'), ('\u2028', 'L'), ('\u2029', 'P')]
  match names.lookup c with
  | some name => some ['\\', name]
  | none =>
    let n := Text.codePoint c
    if 0x20 ≤ n ∧ n ≤ 0x7e then none
    else if n ≤ 0xff then some ('\\' :: 'x' :: Text.hexUpper 2 n)
    else if n ≤ 0xffff then some ('\\' :: 'u' :: Text.hexUpper 4 n)
    else some ('\\' :: 'U' :: Text.hexUpper 8 n)

/-- A text between double quotes, from a column on.  Beyond the last column it folds behind a
backslash: before a blank, before the character after an escape (which `fresh` marks), and behind
an escape; a blank that begins a line is escaped. -/
def doubleLines (indent column : Nat) (first fresh : Bool) : List Char → List Char
  | [] => []
  | c :: rest =>
    let mayFold := !first && !rest.isEmpty
    match escapeOf? c with
    | some written =>
      let column := column + written.length
      if mayFold && foldColumn < column - 1 then
        if rest.head? == some ' ' then
          written ++ '\\' :: newLine indent
            ++ '\\' :: doubleLines indent (indent + 1) false true rest
        else written ++ '\\' :: newLine indent ++ doubleLines indent indent false true rest
      else written ++ doubleLines indent column false true rest
    | none =>
      if mayFold && foldColumn < column && (c == ' ' || fresh) then
        if c == ' ' then
          '\\' :: newLine indent ++ '\\' :: ' ' :: doubleLines indent (indent + 2) false false rest
        else '\\' :: newLine indent ++ c :: doubleLines indent (indent + 1) false false rest
      else c :: doubleLines indent (column + 1) false false rest

/-- A text as a scalar that starts at a column and goes on at an indentation. -/
def scalarText (indent column : Nat) (s : List Char) : List Char :=
  match styleOf s with
  | .plain => plainLines indent column (runs s)
  | .single => '\'' :: singleLines indent (column + 1) true (runs s) ++ ['\'']
  | .double => '"' :: doubleLines indent (column + 1) true true s ++ ['"']

example : scalarText 2 0 "it's".toList = "it's".toList := by decide
example : scalarText 2 0 "a: b".toList = "'a: b'".toList := by decide
example : scalarText 2 0 "yes".toList = "'yes'".toList := by decide

end Montage.Yaml
