import Montage.Fault
import Montage.Number.Binary64

/-!
Numbers: whole numbers of any size, and binary64 values.

A number keeps its kind through every operation: two whole numbers give a whole number, and a
binary64 value on either side makes the other side one too.  Comparison is exact across kinds.
-/

namespace Montage

/-- A point of the line with both infinities; the finite points are counted in units. -/
inductive Place where
  | bottom
  | point (units : Int)
  | top
  deriving DecidableEq

namespace Place

def lt : Place → Place → Bool
  | bottom, bottom => false
  | bottom, _ => true
  | point _, bottom => false
  | point m, point n => decide (m < n)
  | point _, top => true
  | top, _ => false

end Place

inductive Number where
  | int (n : Int)
  | float (x : Binary64)
  deriving DecidableEq

namespace Number

instance : OfNat Number n := ⟨.int n⟩

/-- Where a number lies on the line; a NaN lies nowhere. -/
def place? : Number → Option Place
  | .int n => some (.point (n * unitsInOne))
  | .float .nan => none
  | .float (.infinity true) => some .bottom
  | .float (.infinity false) => some .top
  | .float (.finite s m _) => some (.point (Binary64.signedCount s m))

/-- Strictly less, by place; false with a NaN on either side. -/
def lt (a b : Number) : Bool :=
  match a.place?, b.place? with
  | some p, some q => p.lt q
  | _, _ => false

/-- At the same place; false with a NaN on either side. -/
def eq (a b : Number) : Bool :=
  match a.place?, b.place? with
  | some p, some q => decide (p = q)
  | _, _ => false

def le (a b : Number) : Bool := a.lt b || a.eq b

/-- The greater of two numbers, the first of two equal ones. -/
def max (a b : Number) : Number := if a.lt b then b else a

/-- The lesser of two numbers, the first of two equal ones. -/
def min (a b : Number) : Number := if b.lt a then b else a

def isNaN : Number → Bool
  | .float .nan => true
  | _ => false

/-- A number at zero, of either kind and sign. -/
def isZero (a : Number) : Bool := a.eq 0

/-- The number as a binary64 value. -/
def toBinary64 : Number → Except Fault Binary64
  | .int n =>
    let x := Binary64.ofInt n
    if x.isInfinite then .error .integerTooLarge else .ok x
  | .float x => .ok x

def zipFloat (op : Binary64 → Binary64 → Binary64) (a b : Number) : Except Fault Number := do
  return .float (op (← a.toBinary64) (← b.toBinary64))

def add : Number → Number → Except Fault Number
  | .int m, .int n => .ok (.int (m + n))
  | a, b => zipFloat Binary64.add a b

def sub : Number → Number → Except Fault Number
  | .int m, .int n => .ok (.int (m - n))
  | a, b => zipFloat Binary64.sub a b

def mul : Number → Number → Except Fault Number
  | .int m, .int n => .ok (.int (m * n))
  | a, b => zipFloat Binary64.mul a b

/-- The quotient, always a binary64 value; that of two whole numbers is rounded once. -/
def div : Number → Number → Except Fault Number
  | .int m, .int n =>
    if n = 0 then .error .divisionByZero
    else
      let x := Binary64.ofRatio (decide (m < 0) != decide (n < 0)) (m.natAbs * unitsInOne) n.natAbs
      if x.isInfinite then .error .quotientTooLarge else .ok (.float x)
  | a, b => do
    let x ← a.toBinary64
    let y ← b.toBinary64
    if y.isZero then .error .divisionByZero else .ok (.float (x.div y))

def abs : Number → Number
  | .int n => .int n.natAbs
  | .float x => .float x.abs

/-- The distance between two numbers. -/
def distance (a b : Number) : Except Fault Number := do
  return (← a.sub b).abs

/-- The whole number that remains when a number is cut toward zero. -/
def truncate : Number → Except Fault Int
  | .int n => .ok n
  | .float x =>
    match x.truncate? with
    | some n => .ok n
    | none => .error (if x.isNaN then .nanToInteger else .infinityToInteger)

/-- Quotient and remainder by a positive whole number, the quotient rounded down.

A binary64 value is divided in binary64: the remainder is exact and moved into the divisor's sign,
and the quotient is that of what is left, to the nearest whole number. -/
def floorDivMod (a : Number) (d : Nat) : Number × Number :=
  match a with
  | .int n => (.int (n.fdiv d), .int (n.fmod d))
  | .float x =>
    let y := Binary64.ofInt d
    let r := x.remainder y
    let q := (x.sub r).div y
    let negative := (Number.float r).lt 0
    let r' := if r.isZero then Binary64.zero else if negative then r.add y else r
    let q' := if !r.isZero && negative then q.sub (Binary64.ofInt 1) else q
    let whole := q'.floor
    let up := (Number.float (Binary64.ofRatio false unitsInOne 2)).lt (.float (q'.sub whole))
    let down := if q'.isZero then q' else if up then whole.add (Binary64.ofInt 1) else whole
    (.float down, .float r')

end Number

end Montage
