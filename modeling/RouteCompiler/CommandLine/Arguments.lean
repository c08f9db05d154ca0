/-!
The arguments of the command line. Options of the whole program stand before the command; those of a
command stand anywhere behind it, up to two hyphens alone. An option given twice counts as it was
given last.
-/

namespace RouteCompiler.CommandLine

/-- What every compiling command can be given. -/
structure Choices where
  config : Option String := none
  maskSecrets : Option Bool := none
  templatesOverride : Option String := none
  deriving DecidableEq, Repr, Inhabited

inductive Command
  | validate (flow : String)
  | inspect (flow : String) (choices : Choices)
  | generate (flow out : String) (choices : Choices)
  | descriptor (flow : String) (choices : Choices)
  | help
  deriving DecidableEq, Repr

structure Invocation where
  verbose : Bool := false
  quiet : Bool := false
  command : Command
  deriving DecidableEq, Repr

/-- An option of a command: with a value or a switch. -/
inductive Setting
  | config
  | out
  | templatesOverride
  | maskSecrets (on : Bool)
  | help
  deriving DecidableEq, Repr

def Setting.takesValue : Setting → Bool
  | .config | .out | .templatesOverride => true
  | .maskSecrets _ | .help => false

/-- What the arguments of a command say. -/
structure Given where
  choices : Choices := {}
  out : Option String := none
  help : Bool := false
  positional : List String := []

def Given.set (g : Given) (s : Setting) (value : String) : Given :=
  match s with
  | .config => { g with choices := { g.choices with config := some value } }
  | .out => { g with out := some value }
  | .templatesOverride => { g with choices := { g.choices with templatesOverride := some value } }
  | .maskSecrets on => { g with choices := { g.choices with maskSecrets := some on } }
  | .help => { g with help := true }

def Given.add (g : Given) (arg : String) : Given :=
  { g with positional := g.positional ++ [arg] }

abbrev Options := List (String × Setting)

def pomOptions : Options :=
  [("--config", .config), ("--templates-override", .templatesOverride), ("--help", .help)]

def inspectOptions : Options :=
  ("--mask-secrets", .maskSecrets true) :: ("--no-mask-secrets", .maskSecrets false) :: pomOptions

def generateOptions : Options := ("--out", .out) :: inspectOptions

def validateOptions : Options := [("--help", .help)]

/-- An option's name and the value behind an equals sign. -/
def splitOption (arg : String) : String × Option String :=
  let cs := arg.toList
  if cs.contains '=' then
    (String.ofList (cs.takeWhile (· ≠ '=')), some (String.ofList ((cs.dropWhile (· ≠ '=')).drop 1)))
  else (arg, none)

/-- A hyphen and something behind it. -/
def isOption (arg : String) : Bool := arg.startsWith "-" && arg ≠ "-"

/-- Read the arguments of a command; nothing, if they are not used as they should be. -/
def given? (known : Options) (g : Given) : List String → Option Given
  | [] => some g
  | arg :: r =>
    if arg = "--" then some (r.foldl Given.add g)
    else if !isOption arg then given? known (g.add arg) r
    else
      let (name, value) := splitOption arg
      match known.lookup name with
      | none => none
      | some s =>
        if s.takesValue then
          match value, r with
          | some v, r => given? known (g.set s v) r
          | none, v :: r => given? known (g.set s v) r
          | none, [] => none
        else if value.isSome then none
        else given? known (g.set s "") r

/-- Where a project is written if nothing else is said. -/
def defaultOut : String := "generated"

/-- The command of a name, from what its arguments say. -/
def command? (name : String) (args : List String) : Option Command := do
  let known ← match name with
    | "validate" => some validateOptions
    | "inspect" => some inspectOptions
    | "generate" => some generateOptions
    | "pom" => some pomOptions
    | _ => none
  let g ← given? known {} args
  if g.help then return .help
  match g.positional with
  | [flow] =>
    match name with
    | "validate" => return .validate flow
    | "inspect" => return .inspect flow g.choices
    | "generate" => return .generate flow (g.out.getD defaultOut) g.choices
    | _ => return .descriptor flow g.choices
  | _ => none

/-- Set the switches that are spelled with single letters. -/
def switches? (v q : Bool) : List Char → Option (Bool × Bool)
  | [] => some (v, q)
  | 'v' :: r => switches? true q r
  | 'q' :: r => switches? v true r
  | _ => none

/-- Read the arguments of the program. -/
def invocation? (verbose quiet : Bool) : List String → Option Invocation
  | [] => none
  | "--verbose" :: r => invocation? true quiet r
  | "--quiet" :: r => invocation? verbose true r
  | "--help" :: _ => some ⟨verbose, quiet, .help⟩
  | "--" :: name :: r => (command? name r).map (⟨verbose, quiet, ·⟩)
  | arg :: r =>
    if isOption arg then
      match switches? verbose quiet (arg.toList.drop 1) with
      | some (v, q) => invocation? v q r
      | none => none
    else (command? arg r).map (⟨verbose, quiet, ·⟩)

end RouteCompiler.CommandLine
