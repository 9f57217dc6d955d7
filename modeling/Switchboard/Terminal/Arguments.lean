import Switchboard.Text.Cut
import Switchboard.Text.Numeral

/-!
# Arguments of the terminal

The command line of the terminal. Arguments are read from left to right and the first thing that
ends the reading decides: a request for help or for the version, or an argument that is refused.
An option is given at most once; its value follows as an argument of its own or is attached, and
only an attached value may start with a hyphen.
-/

namespace Switchboard.Terminal

/-- An option of the command line. -/
inductive Switch where
  | test
  | config
  | capacity
  | help
  | version
  deriving DecidableEq, Repr

namespace Switch

/-- The long name of an option. -/
def name : Switch → String
  | test => "--test"
  | config => "--config"
  | capacity => "--capacity"
  | help => "--help"
  | version => "--version"

/-- The short name of an option, if it has one. -/
def letter? : Switch → Option Char
  | config => some 'c'
  | help => some 'h'
  | version => some 'V'
  | test | capacity => none

/-- Whether an option has a value. -/
def takesValue : Switch → Bool
  | config | capacity => true
  | test | help | version => false

/-- All options. -/
def all : List Switch := [test, config, capacity, help, version]

/-- The option of a long name. -/
def ofName? (name : String) : Option Switch :=
  all.find? fun s => s.name == name

/-- The option of a short name. -/
def ofLetter? (c : Char) : Option Switch :=
  all.find? fun s => s.letter? == some c

end Switch

/-- What is asked of a terminal session. -/
structure Options where
  /-- Whether ids start at the bottom of their range in any case. -/
  testMode : Bool := false
  config : Option String := none
  capacity : Nat := 10240
  deriving DecidableEq, Repr

/-- What the command line asks for. -/
inductive Request where
  | session (options : Options)
  | help
  | version
  deriving DecidableEq, Repr

/-- Why a command line is refused. -/
inductive Misuse where
  | unexpected (argument : String)
  | repeated (option : Switch)
  | missingValue (option : Switch)
  | unneededValue (option : Switch) (value : String)
  | badValue (option : Switch) (value : String)
  deriving DecidableEq, Repr

/-- The wording of a refusal. -/
def Misuse.message : Misuse → String
  | unexpected argument => "unexpected argument '" ++ argument ++ "' found"
  | repeated option => "the argument '" ++ option.name ++ "' cannot be used multiple times"
  | missingValue option => "a value is required for '" ++ option.name ++ "' but none was supplied"
  | unneededValue option value =>
    "unexpected value '" ++ value ++ "' for '" ++ option.name ++ "' found; no more were expected"
  | badValue option value => "invalid value '" ++ value ++ "' for '" ++ option.name ++ "'"

/-- The least buffer, which holds a `deferred` token of a one-digit id. -/
def leastCapacity : Nat := 7

/-- The options given so far. -/
structure Given where
  test : Bool := false
  config : Option String := none
  capacity : Option Nat := none
  deriving DecidableEq, Repr

/-- The options of a session; what was not given has its default. -/
def Given.options (g : Given) : Options :=
  { testMode := g.test, config := g.config, capacity := g.capacity.getD ({} : Options).capacity }

/-- Records a file of settings. -/
def Given.putConfig (value : String) (g : Given) : Except Misuse Given :=
  if value = "" then .error (.badValue .config value)
  else if g.config.isSome then .error (.repeated .config)
  else .ok { g with config := some value }

/-- Records a size of the buffer. -/
def Given.putCapacity (value : String) (g : Given) : Except Misuse Given :=
  match (Text.unsigned? Text.wordBound value).filter (leastCapacity ≤ ·) with
  | none => .error (.badValue .capacity value)
  | some n => if g.capacity.isSome then .error (.repeated .capacity)
    else .ok { g with capacity := some n }

/-- Records that ids start at the bottom of their range. -/
def Given.putTest (g : Given) : Except Misuse Given :=
  if g.test then .error (.repeated .test) else .ok { g with test := true }

/-- An argument as an option with an attached value, if it has one. Of several letters after one
hyphen only the first can be an option here, because those without a value end the reading. -/
def readOption (argument : String) : Except Misuse (Switch × Option String) :=
  match argument.toList with
  | '-' :: '-' :: _ =>
    -- the value starts after the first equals sign and may be empty
    let (name, value) :=
      match Text.cut? '=' argument with
      | some (name, value) => (name, some value)
      | none => (argument, none)
    match Switch.ofName? name with
    | none => .error (.unexpected argument)
    | some option =>
      match value with
      | none => .ok (option, none)
      | some value =>
        if option.takesValue then .ok (option, some value)
        else .error (.unneededValue option value)
  | '-' :: letter :: rest =>
    match Switch.ofLetter? letter with
    | none => .error (.unexpected argument)
    | some option =>
      if option.takesValue then
        match rest with
        | [] => .ok (option, none)
        | '=' :: value => .ok (option, some (.ofList value))
        | value => .ok (option, some (.ofList value))
      else .ok (option, none)
  | _ => .error (.unexpected argument)

/-- The next argument as the value of an option. -/
def nextValue (option : Switch) : List String → Except Misuse (String × List String)
  | [] => .error (.missingValue option)
  | value :: rest =>
    if value ≠ "-" ∧ value.startsWith "-" then .error (.missingValue option) else .ok (value, rest)

theorem length_of_nextValue {option : Switch} {args rest : List String} {value : String}
    (h : nextValue option args = .ok (value, rest)) : rest.length < args.length := by
  unfold nextValue at h
  split at h
  · cases h
  · split at h
    · cases h
    · cases h; simp

/-- The value of an option, attached or following, and the arguments after it. -/
def valueOf (option : Switch) (attached : Option String) (rest : List String) :
    Except Misuse (String × { r : List String // r.length ≤ rest.length }) :=
  match attached with
  | some value => .ok (value, ⟨rest, Nat.le_refl _⟩)
  | none =>
    match h : nextValue option rest with
    | .error misuse => .error misuse
    | .ok (value, r) => .ok (value, ⟨r, Nat.le_of_lt (length_of_nextValue h)⟩)

/-- Reads the arguments that are left. -/
def readFrom (given : Given) : List String → Except Misuse Request
  | [] => .ok (.session given.options)
  | ["--"] => .ok (.session given.options)
  | "--" :: argument :: _ => .error (.unexpected argument)
  | argument :: rest =>
    match readOption argument with
    | .error misuse => .error misuse
    | .ok (.help, _) => .ok .help
    | .ok (.version, _) => .ok .version
    | .ok (.test, _) =>
      match given.putTest with
      | .error misuse => .error misuse
      | .ok given => readFrom given rest
    | .ok (.config, attached) =>
      match valueOf .config attached rest with
      | .error misuse => .error misuse
      | .ok (value, rest) =>
        match given.putConfig value with
        | .error misuse => .error misuse
        | .ok given => readFrom given rest.1
    | .ok (.capacity, attached) =>
      match valueOf .capacity attached rest with
      | .error misuse => .error misuse
      | .ok (value, rest) =>
        match given.putCapacity value with
        | .error misuse => .error misuse
        | .ok given => readFrom given rest.1
termination_by args => args.length
decreasing_by
  · simp
  · exact Nat.lt_succ_of_le rest.2
  · exact Nat.lt_succ_of_le rest.2

/-- Reads the arguments of a command line. -/
def readArguments (args : List String) : Except Misuse Request :=
  readFrom {} args

end Switchboard.Terminal
