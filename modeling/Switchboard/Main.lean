import Std.Async.System
import Std.Time
import Switchboard.Main.Network
import Switchboard.Terminal

/-!
# The terminal

The command line of the exchange: reads its settings, opens it, and carries out the lines of
standard input. Everything that is decided, is decided by `Switchboard.Terminal`; here files,
variables, clocks and streams are read and replies are written.
-/

namespace Switchboard.Main

open Terminal

/-! ## Settings -/

/-- Whether a path leads anywhere. -/
def pathLeads (path : String) : IO Bool := do
  try
    discard (IO.FS.realPath path)
    return true
  catch _ => return false

/-- The file under a path. -/
def readFile (path : String) : IO Settings.File := do
  if !(← pathLeads path) then return .absent
  try
    return .content (← IO.FS.readBinFile path).toList
  catch _ => return .unreadable

/-- The values of some variables. -/
def readEnvironment (names : List String) : IO Settings.Environment := do
  let values ← names.mapM fun name => return (name, ← IO.getEnv name)
  return fun name => (values.lookup name).join

/-- Loads the settings of a session. -/
def loadSettings (options : Options) : IO (Except Settings.LoadFault Settings) := do
  let file ← readFile (options.path (← readEnvironment [Settings.pathVariable]))
  match Settings.ofFile file with
  | .error fault => return .error fault
  | .ok s => return Settings.load (← readEnvironment s.variableNames) file

/-- The wording of a failure to load. -/
def loadMessage : Settings.LoadFault → String
  | .unreadable => "Failed to read config file"
  | .malformed => "Failed to parse config file"
  | .invalid reason => reason.message

/-- The wording of a failure to open. -/
def openingMessage : Exchange.OpeningFault → String
  | .refused fault => fault.message
  | .tooManyWorkers => "Too many workers"

/-! ## Surroundings -/

/-- Number of random bytes that are drawn for a call. -/
def drawnBytes : Nat := 524288

/-- Random bytes as places in the alphabet. Bytes beyond the largest multiple of its size are left
out, so that all places are equally likely. -/
def placesOf (drawn : ByteArray) : Array (Fin alphabetSize) :=
  (drawn.data.filter (· < 248)).map fun b =>
    ⟨b.toNat % alphabetSize, Nat.mod_lt _ (by decide)⟩

/-- Words of a length, cut from random places. -/
def wordsOf (places : Array (Fin alphabetSize)) (length : Nat) : List (Word length) :=
  (List.range (min 2000 (places.size / max length 1))).map fun k =>
    .ofFn fun i => places.getD (k * length + i.1) ⟨0, by decide⟩

/-- The host that a line has looked up, if it does. -/
def hostOf (line : List UInt8) (x : Exchange) : Option String := do
  let .call line ← Entry.ofBytes? line | none
  let .ok (.system (.startConsole config)) := Command.parse line | none
  let c ← x.settings.consoles[config]?
  if (Ip.ofLiteral? c.address).isSome then none else some c.address

/-- The surroundings of a line. -/
def surroundings (rules : Std.Time.TimeZone.ZoneRules) (line : List UInt8) (x : Exchange) :
    IO Surroundings := do
  let now ← Std.Time.Timestamp.now
  let drawn ← IO.getRandomBytes drawnBytes.toUSize
  let host := hostOf line x
  let found ← match host with
    | some host => lookupHost host
    | none => pure none
  return {
    clock := {
      now := now.toSecondsSinceUnixEpoch.val
      zone := fun t =>
        (rules.timezoneAt (.ofSecondsSinceUnixEpoch (.ofInt t))).offset.second.val }
    words := fun length => wordsOf (placesOf drawn) length
    lookup := fun h => if some h = host then found else none }

/-- The time zone of the machine, or universal time. -/
def localRules : IO Std.Time.TimeZone.ZoneRules := do
  try Std.Time.Database.defaultGetLocalZoneRules
  catch _ => return Std.Time.TimeZone.ZoneRules.UTC

/-! ## Lines -/

/-- Reads up to the next newline or the end of the input. -/
partial def readLine (input : IO.FS.Stream) (line : List UInt8) : IO (Option (List UInt8)) := do
  let some b := (← input.read 1).toList.head?
    | return if line.isEmpty then none else some line.reverse
  if b = 0x0A then return some line.reverse
  readLine input (b :: line)

/-- Carries out the lines of the input one after the other. -/
partial def serve (rules : Std.Time.TimeZone.ZoneRules) (wire : Wire) (capacity : Nat)
    (input output : IO.FS.Stream) : IO Ending := do
  let some line ← readLine input [] | return .done
  let before ← wire.exchange.get
  let w ← surroundings rules line before
  let reaction ← wire.exchange.modifyGet (react w capacity line)
  if before.link.isNone ∧ (← wire.exchange.get).link.isSome then
    discard (IO.asTask (drive wire) .dedicated)
  match reaction with
  | .finish ending => return ending
  | .silent => pure ()
  | .print reply =>
    output.putStrLn reply
    output.flush
  wire.exchange.modify (Exchange.workOff w)
  serve rules wire capacity input output

/-- Runs a session. -/
def runSession (options : Options) : IO Ending := do
  match ← loadSettings options with
  | .error fault =>
    IO.eprintln ("Error: " ++ loadMessage fault)
    return .failed
  | .ok settings =>
    let processors ← try pure (← Std.Async.System.getCPUInfo).size catch _ => pure 1
    let draw ← IO.rand 0 (UInt64.size - 1)
    match options.launch processors draw.toUInt64 settings with
    | .error fault =>
      IO.eprintln ("Error: " ++ openingMessage fault)
      return .ofOpeningFault fault
    | .ok x =>
      let wire : Wire := ⟨← IO.mkRef x, ← IO.mkRef none⟩
      let rules ← localRules
      let ending ← serve rules wire options.capacity (← IO.getStdin) (← IO.getStdout)
      let w ← surroundings rules [] x
      wire.exchange.modify (Exchange.shutdown w)
      if ending = .failed then IO.eprintln "Error: stream did not contain valid UTF-8"
      return ending

end Switchboard.Main

/-- The program. -/
def main (args : List String) : IO UInt32 := do
  match Switchboard.Terminal.readArguments args with
  | .error misuse =>
    IO.eprintln ("error: " ++ misuse.message ++ "\n\nFor more information, try '--help'.")
    return Switchboard.Terminal.Ending.code .misused
  | .ok .help =>
    IO.print Switchboard.Terminal.usage
    return Switchboard.Terminal.Ending.code .done
  | .ok .version =>
    IO.print Switchboard.Terminal.versionLine
    return Switchboard.Terminal.Ending.code .done
  | .ok (.session options) => return (← Switchboard.Main.runSession options).code
