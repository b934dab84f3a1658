import Montage.Number.Reading
import Montage.Number.Fixed

/-!
Documents: values whose kind is known only when they are read.

Mappings keep their entries in the order in which the keys first came.  A collection may hold
itself, as only a document with names for its parts can say: it is then a loop with a number, and
the number stands for the loop inside of it.
-/

namespace Montage

inductive Document where
  | null
  | bool (b : Bool)
  | number (x : Number)
  | text (s : String)
  | date (d : Day)
  | moment (m : Moment)
  /-- Bytes that are no text. -/
  | bytes (bs : List UInt8)
  | list (items : List Document)
  | map (entries : List (Document × Document))
  /-- Values without an order, none of them twice. -/
  | set (items : List Document)
  /-- A key and its value as an item of a list. -/
  | pair (key value : Document)
  /-- A collection that holds itself. -/
  | loop (n : Nat) (body : Document)
  /-- The loop around with a number. -/
  | back (n : Nat)

instance : Inhabited Document := ⟨.null⟩

namespace Document

/-- The word for the kind of a value in messages. -/
def kind : Document → String
  | null => "NoneType"
  | bool _ => "bool"
  | number (.int _) => "int"
  | number (.float _) => "float"
  | text _ => "str"
  | date _ => "datetime.date"
  | moment _ => "datetime.datetime"
  | bytes _ => "bytes"
  | list _ | back _ => "list"
  | map _ => "dict"
  | set _ => "set"
  | pair _ _ => "tuple"
  | loop _ body => body.kind

def isNull : Document → Bool
  | null => true
  | _ => false

/-- Values that count as absent: null, false, zero, and what is empty. -/
def isVoid : Document → Bool
  | null => true
  | bool b => !b
  | number x => x.isZero
  | text s => s.isEmpty
  | bytes bs => bs.isEmpty
  | list items | set items => items.isEmpty
  | map entries => entries.isEmpty
  | date _ | moment _ | pair _ _ | loop _ _ | back _ => false

/-- Values that may be looked up: all but collections. -/
def isKey : Document → Bool
  | list _ | map _ | set _ | loop _ _ => false
  | _ => true

/-- The number in a value, with false as zero and true as one. -/
def number? : Document → Option Number
  | bool b => some (.int (if b then 1 else 0))
  | number x => some x
  | _ => none

mutual

/-- The value with the loop around it put in for its number. -/
def fill (n : Nat) (whole : Document) : Document → Document
  | list items => .list (fillItems n whole items)
  | map entries => .map (fillEntries n whole entries)
  | pair key value => .pair (fill n whole key) (fill n whole value)
  | loop m body => if m = n then .loop m body else .loop m (fill n whole body)
  | back m => if m = n then whole else .back m
  | d => d

def fillItems (n : Nat) (whole : Document) : List Document → List Document
  | [] => []
  | d :: rest => fill n whole d :: fillItems n whole rest

def fillEntries (n : Nat) (whole : Document) :
    List (Document × Document) → List (Document × Document)
  | [] => []
  | (k, v) :: rest => (fill n whole k, fill n whole v) :: fillEntries n whole rest

end

/-- A value as it shows itself: a loop is the collection that goes around. -/
def face : Document → Document
  | loop n body => fill n (.loop n body) body
  | d => d

mutual

/-- Whether two values are the same; numbers and truth values compare as numbers, lists item by
item, mappings key by key and sets in any order. -/
def agrees (a b : Document) : Bool :=
  match a, b with
  | null, null => true
  | text s, text t => s == t
  | date d, date e => d == e
  | moment m, moment n => m.agrees n
  | bytes bs, bytes cs => bs == cs
  | list xs, list ys => listsAgree xs ys
  | map es, map fs => decide (es.length = fs.length) && entriesAgree es fs
  | set xs, set ys => decide (xs.length = ys.length) && allAmong xs ys
  | pair k v, pair l w => agrees k l && agrees v w
  | a, b =>
    match a.number?, b.number? with
    | some x, some y => x.eq y
    | _, _ => false
termination_by structural a

/-- Whether two lists have the same items. -/
def listsAgree : List Document → List Document → Bool
  | [], [] => true
  | x :: xs, y :: ys => agrees x y && listsAgree xs ys
  | _, _ => false

/-- Whether each of some values is among others. -/
def allAmong (xs ys : List Document) : Bool :=
  match xs with
  | [] => true
  | x :: rest => ys.any (agrees x ·) && allAmong rest ys

/-- Whether each key of some entries has the same value in others. -/
def entriesAgree (es fs : List (Document × Document)) : Bool :=
  match es with
  | [] => true
  | (k, v) :: rest =>
    (fs.any fun f => agrees k f.1 && agrees v f.2) && entriesAgree rest fs

end

/-- The value of a key, the last one if the key comes twice. -/
def lookup? (entries : List (Document × Document)) (key : Document) : Option Document :=
  (entries.reverse.find? fun e => e.1.agrees key).map (·.2)

/-- The entries with a key set: in place when it is present, else at the end. -/
def insert (entries : List (Document × Document)) (key value : Document) :
    List (Document × Document) :=
  match entries with
  | [] => [(key, value)]
  | (k, v) :: rest =>
    if k.agrees key then (k, value) :: rest else (k, v) :: insert rest key value

/-- The value of a text key in a mapping. -/
def get? (entries : List (Document × Document)) (key : String) : Option Document :=
  lookup? entries (.text key)

/-- The value of a text key in a mapping, null when it is absent. -/
def get (entries : List (Document × Document)) (key : String) : Document :=
  (get? entries key).getD .null

/-- The binary64 value of a number, or of a text that is written as one. -/
def toBinary64 : Document → Except Fault Binary64
  | bool b => .ok (Binary64.ofInt (if b then 1 else 0))
  | number x => x.toBinary64
  | text s =>
    match Text.readBinary64? s with
    | some x => .ok x
    | none => .error (.numberText s)
  | d => .error (.numberKind d.kind)

/-- The text of a value as a parameter of a stage. -/
def parameter (d : Document) : Except Fault String := do
  return Number.parameterOf (← d.toBinary64)

end Document

end Montage
