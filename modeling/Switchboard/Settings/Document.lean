import Switchboard.Settings
import Switchboard.Toml.Value

/-!
# Settings from values

The settings that a table of values stands for. A key that is missing leaves its default, a key
that no setting has is ignored, and a value of the wrong type or out of range is refused. A
section may also be given as a list of its fields' values in order; values beyond the last field
are ignored, and so is a date in place of a section, which holds no fields.
-/

namespace Switchboard.Settings

open Toml

/-- The values of a table by key. -/
abbrev Entries := List (String × Value)

/-- A text. -/
def text? : Value → Option String
  | .string s => some s
  | _ => none

/-- A truth value. -/
def flag? : Value → Option Bool
  | .boolean b => some b
  | _ => none

/-- A whole number from 0 up to, not including, `bound`. -/
def number? (bound : Nat) : Value → Option Nat
  | .integer n => if 0 ≤ n ∧ n < bound then some n.toNat else none
  | _ => none

/-- Reads the value under a key, or leaves the default. -/
def field {α : Type} (read : Value → Option α) (entries : Entries) (key : String) (default : α) :
    Option α :=
  match entries.lookup key with
  | some v => read v
  | none => some default

/-- Number of values of a 64-bit word. -/
def secondsBound : Nat := UInt64.size

/-- The keys of a console section, in order. -/
def consoleKeys : List String :=
  ["address", "port", "password", "keepalive_secs", "timeout_secs", "receive_timeout_secs",
   "multipart_ttl_secs"]

/-- The keys of a database section, in order. -/
def databaseKeys : List String :=
  ["backend", "host", "port", "database", "username", "password", "pool_size"]

/-- The fields of a section that is given as a table, as a list of values, or as a date. -/
def sectionEntries? (keys : List String) : Value → Option Entries
  | .table entries => some entries
  | .array items => some (keys.zip items)
  | .datetime _ => some []
  | _ => none

/-- Reads a console section. -/
def consoleSection? (v : Value) : Option ConsoleSection := do
  let es ← sectionEntries? consoleKeys v
  let d : ConsoleSection := {}
  return {
    address := ← field text? es "address" d.address
    port := ← field (fun v => (number? UInt16.size v).map .ofNat) es "port" d.port
    password := ← field text? es "password" d.password
    keepaliveSecs := ← field (number? secondsBound) es "keepalive_secs" d.keepaliveSecs
    timeoutSecs := ← field (number? secondsBound) es "timeout_secs" d.timeoutSecs
    receiveTimeoutSecs :=
      ← field (number? secondsBound) es "receive_timeout_secs" d.receiveTimeoutSecs
    multipartTtlSecs := ← field (number? secondsBound) es "multipart_ttl_secs" d.multipartTtlSecs }

/-- Reads a database section. -/
def databaseSection? (v : Value) : Option DatabaseSection := do
  let es ← sectionEntries? databaseKeys v
  let d : DatabaseSection := {}
  return {
    backend := ← field text? es "backend" d.backend
    host := ← field text? es "host" d.host
    port := ← field (fun v => (number? UInt16.size v).map .ofNat) es "port" d.port
    database := ← field text? es "database" d.database
    username := ← field text? es "username" d.username
    password := ← field text? es "password" d.password
    poolSize := ← field (fun v => (number? UInt32.size v).map .ofNat) es "pool_size" d.poolSize }

/-- Reads the sections of a table by name. -/
def sections? {α : Type} (read : Value → Option α) : Value → Option (Std.ExtTreeMap String α)
  | .table entries => do
    let sections ← entries.mapM fun p => (read p.2).map fun s => (p.1, s)
    return .ofList sections
  | _ => none

/-- Reads the settings of a table. -/
def ofEntries? (es : Entries) : Option Settings := do
  let d : Settings := {}
  return {
    workerThreads := ← field (number? secondsBound) es "worker_threads" d.workerThreads
    randomizeIds := ← field flag? es "randomize_ids" d.randomizeIds
    testMode := ← field flag? es "test_mode" d.testMode
    idRangeStart :=
      ← field (fun v => (number? UInt64.size v).map .ofNat) es "id_range_start" d.idRangeStart
    idRangeEnd :=
      ← field (fun v => (number? UInt64.size v).map .ofNat) es "id_range_end" d.idRangeEnd
    logJson := ← field flag? es "log_json" d.logJson
    consoles := ← field (sections? consoleSection?) es "rcon" d.consoles
    databases := ← field (sections? databaseSection?) es "database" d.databases }

end Switchboard.Settings
