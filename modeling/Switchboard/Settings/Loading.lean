import Switchboard.Settings.Document
import Switchboard.Settings.Environment
import Switchboard.Text.Uppercase
import Switchboard.Text.Utf8
import Switchboard.Toml.Document

/-!
# Loading settings

Settings come from a file, then from the environment, and are then checked. A file that is not
there stands for the defaults.
-/

namespace Switchboard.Settings

/-- A file as far as its reader can tell. -/
inductive File where
  | absent
  | unreadable
  | content (bytes : List UInt8)

/-- Why no settings are loaded. -/
inductive LoadFault where
  /-- The file cannot be read, or is not UTF-8. -/
  | unreadable
  /-- The file is not TOML, or a value has the wrong type or is out of range. -/
  | malformed
  | invalid (reason : Invalidity)
  deriving DecidableEq, Repr

/-- Reads settings from TOML text. -/
def ofToml? (text : String) : Option Settings :=
  (Toml.parse? text).bind ofEntries?

/-- Whether the value of a variable means yes: `1`, or `true` in letters of either case. No letter
beyond ASCII has one of these four as its small form. -/
def isYes (value : String) : Bool :=
  value == "1" || value.toList.map Char.toLower == ['t', 'r', 'u', 'e']

/-- The variable that overrides the password of a section. -/
def passwordVariable (kind name : String) : String :=
  "RCONEXT_" ++ kind ++ "_" ++ Text.upper name ++ "_PASSWORD"

/-- The variables that can override something in these settings. -/
def variableNames (s : Settings) : List String :=
  ["RCONEXT_WORKER_THREADS", "RCONEXT_TEST_MODE", "RCONEXT_LOG_JSON"] ++
    s.consoles.keys.map (passwordVariable "RCON") ++
    s.databases.keys.map (passwordVariable "DATABASE")

/-- Replaces what the environment overrides. A number of workers that is no number is ignored. -/
def override (env : Environment) (s : Settings) : Settings where
  workerThreads :=
    ((env "RCONEXT_WORKER_THREADS").bind (Text.unsigned? Text.wordBound)).getD s.workerThreads
  randomizeIds := s.randomizeIds
  testMode := ((env "RCONEXT_TEST_MODE").map isYes).getD s.testMode
  idRangeStart := s.idRangeStart
  idRangeEnd := s.idRangeEnd
  logJson := ((env "RCONEXT_LOG_JSON").map isYes).getD s.logJson
  consoles := s.consoles.map fun name c =>
    { c with password := (env (passwordVariable "RCON" name)).getD c.password }
  databases := s.databases.map fun name d =>
    { d with password := (env (passwordVariable "DATABASE" name)).getD d.password }

/-- Reads settings from a file. -/
def ofFile (file : File) : Except LoadFault Settings :=
  match file with
  | .absent => .ok {}
  | .unreadable => .error .unreadable
  | .content bytes =>
    match Text.Utf8.decode? bytes with
    | none => .error .unreadable
    | some text =>
      match ofToml? text with
      | none => .error .malformed
      | some s => .ok s

/-- Loads settings from a file and the environment, and checks them. -/
def load (env : Environment) (file : File) : Except LoadFault Settings :=
  match ofFile file with
  | .error fault => .error fault
  | .ok s =>
    let s := s.override env
    match s.invalidity? with
    | some reason => .error (.invalid reason)
    | none => .ok s

/-- The file that is loaded when the environment names none. -/
def defaultPath : String := "rconext.toml"

/-- The variable that names the file to load. -/
def pathVariable : String := "RCONEXT_CONFIG"

/-- The path of the file to load. -/
def path (env : Environment) : String :=
  (env pathVariable).getD defaultPath

end Switchboard.Settings
