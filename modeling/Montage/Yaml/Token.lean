/-!
Tokens of a document.

The start and the end of a block collection, and the key of a mapping, are tokens although no
character stands for them.
-/

namespace Montage.Yaml

inductive Directive where
  | version (major : Nat)
  | handle (handle tagStart : String)
  | other
  deriving DecidableEq

inductive Token where
  | directive (d : Directive)
  | documentStart
  | documentEnd
  | blockSequence
  | blockMapping
  | blockEnd
  | flowSequence
  | flowSequenceEnd
  | flowMapping
  | flowMappingEnd
  /-- The dash before an item of a block. -/
  | item
  /-- The comma between the parts of a flow collection. -/
  | comma
  | key
  | value
  | alias (name : String)
  | anchor (name : String)
  | tag (handle : Option String) (suffix : String)
  | scalar (plain : Bool) (text : String)
  deriving DecidableEq

end Montage.Yaml
