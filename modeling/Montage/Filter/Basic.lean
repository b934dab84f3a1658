import Montage.Filter.Key

/-!
Sets of filter values.

A set may leave keys out.  A set of overrides holds what a clip changes; merged over a full set it
wins for every key that it holds.
-/

namespace Montage

structure FilterSet (K : Type) where
  value? : K → Option FilterValue

namespace FilterSet

variable {K : Type}

/-- The set that holds no key. -/
def empty : FilterSet K := ⟨fun _ => none⟩

/-- The full set that changes nothing. -/
def neutral [FilterKey K] : FilterSet K := ⟨fun k => some (FilterKey.neutral k)⟩

/-- The set with the overrides in place of its own values. -/
def merged (base overrides : FilterSet K) : FilterSet K :=
  ⟨fun k => (overrides.value? k).or (base.value? k)⟩

/-- The set with one key set or left out. -/
def put [DecidableEq K] (s : FilterSet K) (key : K) (value : Option FilterValue) : FilterSet K :=
  ⟨fun k => if k = key then value else s.value? k⟩

/-- Whether two values, either of which may be missing, are the same. -/
def sameValue : Option FilterValue → Option FilterValue → Bool
  | none, none => true
  | some a, some b => a.agrees b
  | _, _ => false

/-- Whether two sets have the same value for every key.  Values are compared as numbers, so a NaN is
not the same as itself.  Where two sets share one NaN and this is to count as the same value, a rule
stands for it that gives both sets, in its place, a number found nowhere else. -/
def agrees [FilterKey K] (a b : FilterSet K) : Bool :=
  (FilterKey.keys (K := K)).all fun k => sameValue (a.value? k) (b.value? k)

/-- The number for a key; zero when it is left out. -/
def amount (s : FilterSet K) (key : K) : Number :=
  match s.value? key with
  | some v => v.toNumber
  | none => 0

/-- Whether the value for a key is there and is not zero. -/
def isOn (s : FilterSet K) (key : K) : Bool := !(s.amount key).isZero

end FilterSet

end Montage
