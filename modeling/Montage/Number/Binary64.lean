/-!
Binary64 values as exact counts.

A finite value is a whole number of units, one unit being `2 ^ -1074`, with a sign that also
tells the two zeros apart.  Every operation works on the exact counts and rounds once, to the
nearest count that 53 significant bits hold, a tie going to the even neighbour.
-/

namespace Montage

/-- One unit is `2 ^ -unitExponent`. -/
def unitExponent : Nat := 1074

/-- The number of units in one. -/
def unitsInOne : Nat := Nat.pow 2 unitExponent

/-- The least count of units beyond the finite range, `2 ^ 1024` in units. -/
def unitsLimit : Nat := Nat.pow 2 (1024 + unitExponent)

/-- A count of units that 53 significant bits hold and that is in range. -/
def IsCount (units : Nat) : Prop :=
  Nat.pow 2 (units.log2 - 52) ∣ units ∧ units < unitsLimit

instance (units : Nat) : Decidable (IsCount units) :=
  inferInstanceAs (Decidable (_ ∧ _))

theorem unitsLimit_pos : 0 < unitsLimit := by decide +kernel

theorem IsCount.zero : IsCount 0 :=
  ⟨Nat.dvd_zero _, unitsLimit_pos⟩

/-- The whole number nearest to `num / den`; of two equally near, the even one. -/
def roundHalfEven (num den : Nat) : Nat :=
  let q := num / den
  let r := num % den
  if 2 * r < den then q else if den < 2 * r then q + 1 else q + q % 2

theorem roundHalfEven_le_succ (num den : Nat) : roundHalfEven num den ≤ num / den + 1 := by
  simp only [roundHalfEven]
  split
  · omega
  · split <;> omega

/-- The number of low bits dropped when `num / den` is cut to 53 significant bits. -/
def droppedBits (num den : Nat) : Nat := (num / den).log2 - 52

/-- The count with 53 significant bits nearest to `num / den`. -/
def roundCount (num den : Nat) : Nat :=
  roundHalfEven num (den * Nat.pow 2 (droppedBits num den)) * Nat.pow 2 (droppedBits num den)

theorem quotient_lt (num den : Nat) :
    num / (den * Nat.pow 2 (droppedBits num den)) < Nat.pow 2 53 := by
  simp only [Nat.pow_eq]
  rw [← Nat.div_div_eq_div_mul]
  apply Nat.div_lt_of_lt_mul
  rw [← Nat.pow_add]
  apply Nat.lt_of_lt_of_le (Nat.lt_log2_self (n := num / den))
  apply Nat.pow_le_pow_right (by decide)
  simp only [droppedBits]
  omega

theorem dvd_scaled {q : Nat} (h : q ≤ Nat.pow 2 53) (s : Nat) :
    Nat.pow 2 ((q * Nat.pow 2 s).log2 - 52) ∣ q * Nat.pow 2 s := by
  simp only [Nat.pow_eq] at h ⊢
  rcases Nat.lt_or_eq_of_le h with h | rfl
  · rcases Nat.eq_zero_or_pos q with rfl | hq
    · simp
    · apply Nat.dvd_trans (Nat.pow_dvd_pow 2 ?_) (Nat.dvd_mul_left _ _)
      have hne : q * 2 ^ s ≠ 0 := Nat.ne_of_gt (Nat.mul_pos hq (Nat.two_pow_pos s))
      have hlt : q * 2 ^ s < 2 ^ (53 + s) := by
        rw [Nat.pow_add]
        exact Nat.mul_lt_mul_of_pos_right h (Nat.two_pow_pos s)
      have := (Nat.log2_lt hne).2 hlt
      omega
  · rw [← Nat.pow_add]
    exact Nat.pow_dvd_pow 2 (Nat.sub_le_of_le_add (by rw [Nat.log2_two_pow]; omega))

theorem roundCount_dvd (num den : Nat) :
    Nat.pow 2 ((roundCount num den).log2 - 52) ∣ roundCount num den :=
  dvd_scaled (Nat.le_trans (roundHalfEven_le_succ _ _) (quotient_lt num den)) _

inductive Binary64 where
  | nan
  | infinity (negative : Bool)
  | finite (negative : Bool) (units : Nat) (count : IsCount units)
  deriving DecidableEq

namespace Binary64

def zero : Binary64 := .finite false 0 IsCount.zero

/-- The value nearest to `num / den` units, infinite when that is out of range. -/
def ofRatio (negative : Bool) (num den : Nat) : Binary64 :=
  if h : roundCount num den < unitsLimit then
    .finite negative (roundCount num den) ⟨roundCount_dvd num den, h⟩
  else .infinity negative

/-- The value nearest to a whole number. -/
def ofInt (n : Int) : Binary64 :=
  ofRatio (decide (n < 0)) (n.natAbs * unitsInOne) 1

def isFinite : Binary64 → Bool
  | .finite .. => true
  | _ => false

def isInfinite : Binary64 → Bool
  | .infinity _ => true
  | _ => false

def isNaN : Binary64 → Bool
  | .nan => true
  | _ => false

/-- Both zeros, and nothing else. -/
def isZero : Binary64 → Bool
  | .finite _ units _ => units == 0
  | _ => false

def neg : Binary64 → Binary64
  | .nan => .nan
  | .infinity s => .infinity !s
  | .finite s m h => .finite (!s) m h

def abs : Binary64 → Binary64
  | .nan => .nan
  | .infinity _ => .infinity false
  | .finite _ m h => .finite false m h

/-- A count with its sign; the two zeros agree. -/
def signedCount (negative : Bool) (units : Nat) : Int :=
  if negative then -(units : Int) else units

/-- The value with the given count of units rounded; zero takes the given sign. -/
def ofSum (total : Int) (zeroSign : Bool) : Binary64 :=
  if total = 0 then .finite zeroSign 0 IsCount.zero
  else ofRatio (decide (total < 0)) total.natAbs 1

def add : Binary64 → Binary64 → Binary64
  | .nan, _ => .nan
  | _, .nan => .nan
  | .infinity s, .infinity t => if s = t then .infinity s else .nan
  | .infinity s, .finite .. => .infinity s
  | .finite .., .infinity t => .infinity t
  | .finite s m _, .finite t n _ => ofSum (signedCount s m + signedCount t n) (s && t)

def sub (x y : Binary64) : Binary64 := x.add y.neg

def mul : Binary64 → Binary64 → Binary64
  | .nan, _ => .nan
  | _, .nan => .nan
  | .infinity s, .infinity t => .infinity (s != t)
  | .infinity s, .finite t n _ => if n = 0 then .nan else .infinity (s != t)
  | .finite s m _, .infinity t => if m = 0 then .nan else .infinity (s != t)
  | .finite s m _, .finite t n _ => ofRatio (s != t) (m * n) unitsInOne

def div : Binary64 → Binary64 → Binary64
  | .nan, _ => .nan
  | _, .nan => .nan
  | .infinity _, .infinity _ => .nan
  | .infinity s, .finite t _ _ => .infinity (s != t)
  | .finite s _ _, .infinity t => .finite (s != t) 0 IsCount.zero
  | .finite s m _, .finite t n _ =>
    if n = 0 then (if m = 0 then .nan else .infinity (s != t))
    else ofRatio (s != t) (m * unitsInOne) n

/-- The remainder of the quotient cut toward zero; it is exact and has the dividend's sign. -/
def remainder : Binary64 → Binary64 → Binary64
  | .nan, _ => .nan
  | _, .nan => .nan
  | .infinity _, _ => .nan
  | .finite s m h, .infinity _ => .finite s m h
  | .finite s m _, .finite _ n _ => if n = 0 then .nan else ofRatio s (m % n) 1

/-- The whole part of a count of units, with the part left over. -/
def splitCount (units : Nat) : Nat × Nat := (units / unitsInOne, units % unitsInOne)

/-- The greatest whole number not above the value, as a value. -/
def floor : Binary64 → Binary64
  | .nan => .nan
  | .infinity s => .infinity s
  | .finite s m _ =>
    let (whole, rest) := splitCount m
    if rest = 0 then ofRatio s (whole * unitsInOne) 1
    else if s then ofRatio s ((whole + 1) * unitsInOne) 1
    else ofRatio s (whole * unitsInOne) 1

/-- The whole number a finite value cuts to, toward zero. -/
def truncate? : Binary64 → Option Int
  | .finite s m _ => some (signedCount s (m / unitsInOne))
  | _ => none

/-- Whether a finite value is a whole number. -/
def isWhole : Binary64 → Bool
  | .finite _ m _ => m % unitsInOne == 0
  | _ => false

end Binary64

end Montage
