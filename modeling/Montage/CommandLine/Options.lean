import Montage.Text.Digit

/-!
Options of a command line.

A long option may be cut short as long as it stays unambiguous, and takes its value behind an
equals sign or from the next argument.  Short options may be written together behind one dash; one
with a value takes what is left of the argument, or the next one.  No argument may stand alone.
-/

namespace Montage.CommandLine

inductive Role where
  | file | output | preset | plan | quiet | debug | help
  deriving DecidableEq

structure OptionForm where
  role : Role
  short : Char
  long : String
  takesValue : Bool := false

structure Options where
  file : String
  output : Option String := none
  preset : Option String := none
  plan : Bool := false
  quiet : Bool := false
  debug : Bool := false
  deriving DecidableEq

/-- What the arguments ask for. -/
inductive Invocation where
  | help
  | misuse
  | options (o : Options)
  deriving DecidableEq

def sharedForms : List OptionForm := [
  { role := .help, short := 'h', long := "help" },
  { role := .file, short := 'y', long := "yaml", takesValue := true },
  { role := .output, short := 'o', long := "output", takesValue := true },
  { role := .preset, short := 'P', long := "preset", takesValue := true }]

/-- The options of the exporter. -/
def exporterForms : List OptionForm := sharedForms ++ [
  { role := .plan, short := 'p', long := "dump-plan" },
  { role := .quiet, short := 'q', long := "quiet" }]

/-- The options of the dashboard. -/
def dashboardForms : List OptionForm := sharedForms ++ [
  { role := .debug, short := 'd', long := "debug" }]

namespace OptionForm

def longChars (f : OptionForm) : List Char := '-' :: '-' :: f.long.toList

/-- Whether an argument is the option, written in full. -/
def isWritten (f : OptionForm) (arg : List Char) : Bool :=
  arg == ['-', f.short] || arg == f.longChars

end OptionForm

/-- What an argument is. -/
inductive Argument where
  | value (text : String)
  /-- Two dashes, behind which all arguments are values. -/
  | separator
  /-- An option that is not known. -/
  | unknown
  /-- An option with what is attached to it by an equals sign. -/
  | option (form : OptionForm) (attached : Option String)
  /-- Short options behind one dash: the first one, and the characters behind it. -/
  | cluster (form : OptionForm) (rest : List Char)

/-- Digits with at most one point, digits behind it. -/
def isNumberText (s : List Char) : Bool :=
  match s.dropWhile Text.isDigit with
  | [] => !s.isEmpty
  | '.' :: places => !places.isEmpty && places.all Text.isDigit
  | _ => false

/-- The part before the first equals sign, and the part behind it. -/
def splitEquals (s : List Char) : List Char × Option String :=
  match s.dropWhile (· != '=') with
  | [] => (s, none)
  | _ :: behind => (s.takeWhile (· != '='), some (String.ofList behind))

/-- What an argument is that begins with a dash and matches no option: a number and a text with a
blank are values. -/
def dashed (arg : List Char) : Argument :=
  if isNumberText (arg.drop 1) || arg.contains ' ' then .value (String.ofList arg) else .unknown

/-- What an argument is; none if it is short for more than one option. -/
def classify (forms : List OptionForm) (arg : List Char) : Option Argument :=
  let (name, attached) := splitEquals arg
  match arg with
  | '-' :: c :: rest =>
    match forms.find? (·.isWritten arg), forms.find? (·.isWritten name) with
    | some f, _ => some (.option f none)
    | none, some f => some (.option f attached)
    | none, none =>
      if c == '-' then
        match forms.filter fun f => name.isPrefixOf f.longChars with
        | [] => some (dashed arg)
        | [f] => some (.option f attached)
        | _ => none
      else
        match forms.find? (·.short == c) with
        | some f => some (.cluster f rest)
        | none => some (dashed arg)
  | _ => some (.value (String.ofList arg))

/-- What the arguments are. -/
def classifyAll (forms : List OptionForm) : List String → Option (List Argument)
  | [] => some []
  | "--" :: rest => some (.separator :: rest.map .value)
  | arg :: rest => do return (← classify forms arg.toList) :: (← classifyAll forms rest)

/-- What one argument sets. -/
structure Unfolded where
  settings : List (Role × String)
  /-- The option that wants the next argument as its value. -/
  wants : Option Role := none
  /-- The argument ends in letters that are no options. -/
  stray : Bool := false

namespace Unfolded

def empty : Unfolded := { settings := [] }

/-- With a setting before the others. -/
def cons (role : Role) (u : Unfolded) : Unfolded := { u with settings := (role, "") :: u.settings }

/-- An option alone. -/
def ofForm (f : OptionForm) : Unfolded :=
  if f.takesValue then { settings := [], wants := some f.role }
  else { settings := [(f.role, "")] }

/-- An option with a value attached to it; none if it takes none. -/
def ofAttached? (f : OptionForm) (value : String) : Option Unfolded :=
  if f.takesValue then some { settings := [(f.role, value)] } else none

end Unfolded

/-- Short options behind one dash, the first one and the characters behind it. -/
def unfold (forms : List OptionForm) (f : OptionForm) : List Char → Option Unfolded
  | [] => some (.ofForm f)
  | '=' :: value => Unfolded.ofAttached? f (String.ofList value)
  | c :: rest =>
    if f.takesValue then some { settings := [(f.role, String.ofList (c :: rest))] }
    else if c == '-' then none
    else
      match forms.find? (·.short == c) with
      | none => some { settings := [(f.role, "")], stray := true }
      | some next => (unfold forms next rest).map (.cons f.role)

/-- The settings of one option. -/
def settingsOf (forms : List OptionForm) : Argument → Option Unfolded
  | .option f none => some (.ofForm f)
  | .option f (some value) => Unfolded.ofAttached? f value
  | .cluster f rest => unfold forms f rest
  | _ => some .empty

/-- What is asked for so far. -/
structure Request where
  file : Option String := none
  output : Option String := none
  preset : Option String := none
  plan : Bool := false
  quiet : Bool := false
  debug : Bool := false
  /-- An argument stands alone. -/
  stray : Bool := false

namespace Request

/-- The request with a setting; none for help. -/
def put (r : Request) : Role × String → Option Request
  | (.help, _) => none
  | (.file, v) => some { r with file := some v }
  | (.output, v) => some { r with output := some v }
  | (.preset, v) => some { r with preset := some v }
  | (.plan, _) => some { r with plan := true }
  | (.quiet, _) => some { r with quiet := true }
  | (.debug, _) => some { r with debug := true }

/-- What a request asks for: the file must be named. -/
def finish (r : Request) : Invocation :=
  match r.file, r.stray with
  | some file, false => .options {
      file := file, output := r.output, preset := r.preset
      plan := r.plan, quiet := r.quiet, debug := r.debug }
  | _, _ => .misuse

end Request

/-- What the arguments ask for after a request. -/
def follow (forms : List OptionForm) (r : Request) : List Argument → Invocation
  | [] => r.finish
  | .value _ :: rest => follow forms { r with stray := true } rest
  | .separator :: rest => follow forms { r with stray := true } rest
  | .unknown :: rest => follow forms { r with stray := true } rest
  | a :: rest =>
    match settingsOf forms a, rest with
    | none, _ => .misuse
    | some ⟨settings, none, stray⟩, rest =>
      match settings.foldlM Request.put r with
      | some r => follow forms { r with stray := r.stray || stray } rest
      | none => .help
    | some ⟨settings, some role, _⟩, .value v :: rest =>
      match (settings ++ [(role, v)]).foldlM Request.put r with
      | some r => follow forms r rest
      | none => .help
    | some ⟨_, some _, _⟩, _ => .misuse

/-- What a command line asks for. -/
def invocation (forms : List OptionForm) (args : List String) : Invocation :=
  match classifyAll forms args with
  | some arguments => follow forms {} arguments
  | none => .misuse

example : invocation exporterForms ["-pqya"]
    = .options { file := "a", plan := true, quiet := true } := by decide
example : invocation exporterForms ["--dump", "--yaml=b", "-o", "-1"]
    = .options { file := "b", plan := true, output := some "-1" } := by decide
example : invocation exporterForms ["-q"] = .misuse := by decide

end Montage.CommandLine
