import Montage.Filter.Reading

/-!
The four families of filter sets: full sets and overrides, for video and for audio.  Sets of two
families are never the same.
-/

namespace Montage

inductive FilterFamily where
  | video
  | audio
  | videoOverrides
  | audioOverrides
  deriving DecidableEq

namespace FilterFamily

/-- The title under which a set is shown. -/
def title : FilterFamily → String
  | video => "VideoFilters"
  | audio => "AudioFilters"
  | videoOverrides => "VideoFilterOverrides"
  | audioOverrides => "AudioFilterOverrides"

/-- The type of the keys. -/
def Key : FilterFamily → Type
  | video | videoOverrides => VideoKey
  | audio | audioOverrides => AudioKey

instance : (f : FilterFamily) → FilterKey f.Key
  | video | videoOverrides => inferInstanceAs (FilterKey VideoKey)
  | audio | audioOverrides => inferInstanceAs (FilterKey AudioKey)

instance : (f : FilterFamily) → DecidableEq f.Key
  | video | videoOverrides => inferInstanceAs (DecidableEq VideoKey)
  | audio | audioOverrides => inferInstanceAs (DecidableEq AudioKey)

/-- The set before any key is put: the neutral one, or the empty one for overrides. -/
def base : (f : FilterFamily) → FilterSet f.Key
  | video | audio => .neutral
  | videoOverrides | audioOverrides => .empty

end FilterFamily

/-- A set of some family. -/
structure FilterSheet where
  family : FilterFamily
  values : FilterSet family.Key

namespace FilterSheet

def ofDocument (label : String) (family : FilterFamily) (d : Document) :
    Except Failure FilterSheet := do
  return ⟨family, ← FilterSet.ofDocument label family.base d⟩

def literal (s : FilterSheet) : String := s.values.literal s.family.title

/-- Whether two sets are of one family and have the same values. -/
def agrees (s t : FilterSheet) : Bool :=
  if h : t.family = s.family then s.values.agrees (h ▸ t.values) else false

end FilterSheet

end Montage
