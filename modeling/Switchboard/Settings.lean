import Std.Data.ExtTreeMap

/-!
# Settings

What an exchange is told before it opens: the range of request ids, the number of workers, the
sections that name admin consoles and databases, and which combinations of these are refused.
-/

namespace Switchboard

/-- An admin console that can be linked to. -/
structure ConsoleSection where
  address : String := "127.0.0.1"
  port : UInt16 := 2302
  password : String := ""
  /-- Idle seconds after which a keepalive is sent. -/
  keepaliveSecs : Nat := 30
  /-- Idle seconds after which the session counts as dead. -/
  timeoutSecs : Nat := 45
  /-- Seconds that one reception waits. -/
  receiveTimeoutSecs : Nat := 5
  /-- Seconds that an incomplete answer is held. -/
  multipartTtlSecs : Nat := 120
  deriving DecidableEq, Repr

/-- A database that sessions can be bound to. -/
structure DatabaseSection where
  backend : String := "mysql"
  host : String := "localhost"
  port : UInt16 := 3306
  database : String := ""
  username : String := ""
  password : String := ""
  poolSize : UInt32 := 10
  deriving DecidableEq, Repr

/-- The settings of an exchange. -/
structure Settings where
  /-- Number of workers; 0 leaves it to the machine. -/
  workerThreads : Nat := 0
  /-- Whether the first id is moved up by a random offset. -/
  randomizeIds : Bool := true
  /-- Whether ids start at the bottom of their range in any case. -/
  testMode : Bool := false
  idRangeStart : UInt64 := 1
  /-- First number after the request ids. -/
  idRangeEnd : UInt64 := 2147483647
  logJson : Bool := false
  consoles : Std.ExtTreeMap String ConsoleSection := ∅
  databases : Std.ExtTreeMap String DatabaseSection := ∅

namespace Settings

/-- Why settings are refused. -/
inductive Invalidity where
  | firstIdZero
  | emptyIdRange
  | noReceiveTimeout (name : String)
  /-- A console's session would be dead before its keepalive. -/
  | keepaliveTooLate (name : String) (keepalive timeout : Nat)
  deriving DecidableEq, Repr

/-- The wording of a refusal. -/
def Invalidity.message : Invalidity → String
  | firstIdZero => "Request ids must start at 1 or above"
  | emptyIdRange => "Request id range must not be empty"
  | noReceiveTimeout name =>
    "RCON [" ++ name ++ "]: receive timeout must be at least 1 second"
  | keepaliveTooLate name keepalive timeout =>
    "RCON [" ++ name ++ "]: keepalive (" ++ toString keepalive ++
      "s) must be shorter than timeout (" ++ toString timeout ++ "s)"

/-- What is wrong with a console section. -/
def sectionInvalidity? (name : String) (c : ConsoleSection) : Option Invalidity :=
  if c.receiveTimeoutSecs = 0 then some (.noReceiveTimeout name)
  else if c.timeoutSecs ≤ c.keepaliveSecs then
    some (.keepaliveTooLate name c.keepaliveSecs c.timeoutSecs)
  else none

/-- The first thing that is wrong: the ids before the consoles, the consoles in order of name. -/
def invalidity? (s : Settings) : Option Invalidity :=
  if s.idRangeStart = 0 then some .firstIdZero
  else if s.idRangeEnd ≤ s.idRangeStart then some .emptyIdRange
  else s.consoles.toList.findSome? fun p => sectionInvalidity? p.1 p.2

/-- The largest number of workers that the machine is asked for. -/
def maxAutoWorkers : Nat := 6

/-- The number of workers on a machine with this many processors. -/
def workers (processors : Nat) (s : Settings) : Nat :=
  if 0 < s.workerThreads then s.workerThreads else min (max processors 1) maxAutoWorkers

/-- Whether the first id is moved up by a random offset. -/
def usesRandomIds (s : Settings) : Bool :=
  s.randomizeIds && !s.testMode

end Settings

end Switchboard
