import Switchboard.Fault

/-!
# Commands

What a host command line asks for.
-/

namespace Switchboard

/-- The number under which the host collects a result. -/
abbrev RequestId := UInt64

/-- How a handler is run. -/
inductive Mode where
  /-- At once, its output being the reply. -/
  | inline
  /-- By a worker, its output being dropped. -/
  | background
  /-- By a worker, its output being kept for collection. -/
  | kept
  deriving DecidableEq, Repr

/-- An administrative command. -/
inductive SystemCommand where
  | version
  | lock
  | lockStatus
  | outputSize
  | startConsole (config : String)
  | bindDatabase (config id : String)
  /-- Register a handler of a built-in kind, on a database session or on none. -/
  | addHandler (database : Option String) (kind name initArgs : String)
  deriving DecidableEq, Repr

/-- A host command. -/
inductive Command where
  | run (mode : Mode) (protocol payload : String)
  | take (id : RequestId)
  | takeChunk (id : RequestId)
  | system (command : SystemCommand)
  deriving DecidableEq, Repr

/-- Whether a command changes what is set up, and so is refused once locked. -/
def SystemCommand.isSetup : SystemCommand → Bool
  | startConsole _ | bindDatabase _ _ | addHandler _ _ _ _ => true
  | version | lock | lockStatus | outputSize => false

end Switchboard
