import Switchboard.Command
import Switchboard.Text.Blank
import Switchboard.Text.Cut

/-!
# Reading command lines

A line is one digit, a colon and a rest. The digit says what the rest holds: a handler's name and
a payload, a request id, or an administrative command with its fields. Fields are separated by
colons; only the last field of a line may hold colons of its own.
-/

namespace Switchboard.Command

open Text

/-- Reads the name of a handler and the payload for it, neither of them empty. -/
def parseRun (mode : Mode) (rest : String) : Except CallFault Command :=
  match cut? ':' rest with
  | some (protocol, payload) =>
    if protocol = "" ∨ payload = "" then .error .invalidFormat
    else .ok (.run mode protocol payload)
  | none => .error .invalidFormat

/-- Reads a request id, which is positive. Blanks around it do not count. -/
def parseId (rest : String) : Except CallFault RequestId :=
  match word? (trim rest) with
  | some id => if id = 0 then .error (.invalidId (trim rest)) else .ok id
  | none => .error (.invalidId (trim rest))

/-- The administrative commands without fields, by name. -/
def plainCommands : List (String × SystemCommand) :=
  [("VERSION", .version), ("LOCK", .lock), ("LOCK_STATUS", .lockStatus),
   ("OUTPUTSIZE", .outputSize)]

/-- The fields of a database command: section and session id, neither of them empty. -/
def parseDatabase (fields : String) : Except CallFault SystemCommand :=
  match cut? ':' fields with
  | some (config, id) =>
    if config = "" ∨ id = "" then .error .invalidFormat else .ok (.bindDatabase config id)
  | none => .error .invalidFormat

/-- The fields of a registration: session id, which may be empty for none, kind, name, and what is
handed to the handler, which may be missing. -/
def parseAdd (fields : String) : Except CallFault SystemCommand :=
  match cut? ':' fields with
  | some (database, rest) =>
    match cut? ':' rest with
    | some (kind, rest) =>
      let (name, initArgs) := (cut? ':' rest).getD (rest, "")
      if kind = "" ∨ name = "" then .error .invalidFormat
      else .ok (.addHandler (if database = "" then none else some database) kind name initArgs)
    | none => .error .invalidFormat
  | none => .error .invalidFormat

/-- Reads an administrative command. Blanks around it do not count. -/
def parseSystem (rest : String) : Except CallFault SystemCommand :=
  let text := trim rest
  match cut? ':' text with
  | none =>
    match plainCommands.lookup text with
    | some command => .ok command
    | none =>
      if text ∈ ["START_RCON", "DATABASE", "ADD"] then .error .invalidFormat
      else .error (.unknownSystemCommand text)
  | some (name, fields) =>
    if name = "START_RCON" then
      if fields = "" then .error .invalidFormat else .ok (.startConsole fields)
    else if name = "DATABASE" then parseDatabase fields
    else if name = "ADD" then parseAdd fields
    else .error (.unknownSystemCommand text)

/-- Reads what follows the digit and the colon. -/
def parseRest (opcode : Char) (rest : String) : Except CallFault Command :=
  match opcode with
  | '0' => parseRun .inline rest
  | '1' => parseRun .background rest
  | '2' => parseRun .kept rest
  | '4' => (parseId rest).map .take
  | '5' => (parseId rest).map .takeChunk
  | '9' => (parseSystem rest).map .system
  | c => .error (.invalidOpcode c)

/-- Reads a host command line. A first character beyond ASCII takes more than one byte, so the
colon does not stand second and the line has not the shape of a command. -/
def parse (line : String) : Except CallFault Command :=
  match line.toList with
  | opcode :: ':' :: c :: cs =>
    if opcode.toNat < 0x80 then parseRest opcode (.ofList (c :: cs)) else .error .invalidFormat
  | _ => .error .invalidFormat

end Switchboard.Command
