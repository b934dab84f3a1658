import Montage.Calendar.Moment
import Montage.Text.Quoted

/-!
Faults of arithmetic and of conversions between kinds of values.
-/

namespace Montage

inductive Fault where
  /-- A whole number is beyond the range of binary64. -/
  | integerTooLarge
  /-- The quotient of two whole numbers is beyond that range. -/
  | quotientTooLarge
  /-- A power is beyond that range. -/
  | powerTooLarge
  | divisionByZero
  | infinityToInteger
  | nanToInteger
  /-- The text is not written as a number. -/
  | numberText (text : String)
  /-- The text is not written as a whole number of the given base. -/
  | integerText (base : Nat) (text : String)
  /-- A value of this kind is neither a number nor a text. -/
  | numberKind (kind : String)
  /-- A text stands where a number is to be scaled. -/
  | scaledText
  /-- A value of this kind cannot be looked up. -/
  | lookupKind (kind : String)
  /-- A date that the calendar lacks. -/
  | date (reason : String)
  /-- An offset from universal time, in minutes, of a day or more. -/
  | offsetRange (minutes : Int)
  /-- The text is not written as a date. -/
  | dateText
  /-- A word that is no truth value. -/
  | truthWord (word : String)
  /-- A number without a single character. -/
  | emptyNumber
  /-- A code point beyond the last one. -/
  | codePointRange
  /-- A code point that does not even fit into a machine word. -/
  | codePointSize
  /-- The text has more digits than are read. -/
  | digitsRead (count : Nat)
  /-- A whole number has more digits than are written. -/
  | digitsWritten
  /-- A value of this kind stands where a text is to be. -/
  | textExpected (kind : String)
  /-- A value of this kind has no parts to be searched for a text. -/
  | searchedKind (kind : String)
  /-- A value of this kind has no small letters. -/
  | loweredKind (kind : String)
  /-- A value of this kind stands at a place among words that are to be joined. -/
  | joinedKind (place : Nat) (kind : String)
  deriving DecidableEq

namespace Fault

/-- The number of digits up to which whole numbers are read and written in base ten. -/
def digitLimit : Nat := 4300

/-- The number of characters up to which a text that is no whole number is shown. -/
def shownLength : Nat := 200

def digitNotice (count : String) : String :=
  s!"Exceeds the limit ({digitLimit} digits) for integer string conversion{count}; "
    ++ "use sys.set_int_max_str_digits() to increase the limit"

def message : Fault → String
  | integerTooLarge => "int too large to convert to float"
  | quotientTooLarge => "integer division result too large for a float"
  | powerTooLarge => "(34, 'Numerical result out of range')"
  | divisionByZero => "float division by zero"
  | infinityToInteger => "cannot convert float infinity to integer"
  | nanToInteger => "cannot convert float NaN to integer"
  | numberText text => "could not convert string to float: " ++ Text.quoted text
  | integerText base text =>
    s!"invalid literal for int() with base {base}: "
      ++ String.ofList ((Text.quotedChars text.toList).take shownLength)
  | numberKind kind => s!"float() argument must be a string or a real number, not '{kind}'"
  | scaledText => "can't multiply sequence by non-int of type 'float'"
  | lookupKind kind => s!"unhashable type: '{kind}'"
  | date reason => reason
  | offsetRange minutes =>
    "offset must be a timedelta strictly between -timedelta(hours=24) and timedelta(hours=24), "
      ++ s!"not {Moment.spanLiteral minutes}."
  | dateText => "'NoneType' object has no attribute 'groupdict'"
  | truthWord word => word
  | emptyNumber => "string index out of range"
  | codePointRange => "chr() arg not in range(0x110000)"
  | codePointSize => "Python int too large to convert to C int"
  | digitsRead count => digitNotice s!": value has {count} digits"
  | digitsWritten => digitNotice ""
  | textExpected kind => s!"expected string or bytes-like object, got '{kind}'"
  | searchedKind kind => s!"argument of type '{kind}' is not iterable"
  | loweredKind kind => s!"'{kind}' object has no attribute 'lower'"
  | joinedKind place kind => s!"sequence item {place}: expected str instance, {kind} found"

end Fault

end Montage
