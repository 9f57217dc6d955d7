import Switchboard.Text.Numeral

/-!
# Faults

Everything that can go wrong, by cause, and its wording. A fault belongs to one of five families;
its full wording names the family, the wording for the host leaves the three inner families out.
-/

namespace Switchboard

/-- Why a host command line is refused. -/
inductive CallFault where
  | invalidFormat
  | invalidOpcode (opcode : Char)
  | invalidId (text : String)
  | unknownProtocol (name : String)
  | unknownSystemCommand (text : String)
  | locked
  | idSpaceExhausted
  | invalidIdRange (first last : UInt64)
  | poolClosed
  deriving DecidableEq, Repr

/-- Why a handler or a database session is not set up. -/
inductive SetupFault where
  | nameTaken (name : String)
  | unknownKind (kind : String)
  | initFailed (name : String)
  | noDatabase (id : String)
  | databaseTaken (id : String)
  | noDatabaseConfig (name : String)
  deriving DecidableEq, Repr

/-- Why the link to the admin console fails. -/
inductive LinkFault where
  | alreadyStarted
  | notStarted
  | noConfig (name : String)
  | invalidAddress (description : String)
  | malformedPacket (description : String)
  | checksumMismatch (expected actual : List UInt8)
  | socket (description : String)
  deriving DecidableEq, Repr

/-- Any fault. -/
inductive Fault where
  | call (fault : CallFault)
  | setup (fault : SetupFault)
  | link (fault : LinkFault)
  | io (description : String)
  | config (description : String)
  deriving DecidableEq, Repr

/-- The wording of a refused command line. -/
def CallFault.message : CallFault → String
  | .invalidFormat => "Invalid Format"
  | .invalidOpcode c => "Invalid Opcode: " ++ c.toString
  | .invalidId text => "Invalid Id: " ++ text
  | .unknownProtocol name => "Unknown Protocol: " ++ name
  | .unknownSystemCommand text => "Unknown System Command: " ++ text
  | .locked => "Locked"
  | .idSpaceExhausted => "Request id space exhausted"
  | .invalidIdRange first last =>
    "Invalid request id range: " ++ toString first ++ ".." ++ toString last
  | .poolClosed => "Worker pool is shut down"

/-- The wording of a failed setup. -/
def SetupFault.message : SetupFault → String
  | .nameTaken name => "Protocol name already taken: " ++ name
  | .unknownKind kind => "Unknown protocol type: " ++ kind
  | .initFailed name => "Failed to load protocol: " ++ name
  | .noDatabase id => "No database session: " ++ id
  | .databaseTaken id => "Database session id already taken: " ++ id
  | .noDatabaseConfig name => "No database config: " ++ name

/-- Bytes as a bracketed list of two-digit hexadecimal numbers. -/
def byteList (bs : List UInt8) : String :=
  "[" ++ ", ".intercalate (bs.map Text.hexByte) ++ "]"

/-- The wording of a failure of the link. -/
def LinkFault.message : LinkFault → String
  | .alreadyStarted => "RCON already started"
  | .notStarted => "RCON not started"
  | .noConfig name => "No RCON config: " ++ name
  | .invalidAddress description => "Invalid address: " ++ description
  | .malformedPacket description => "Malformed packet: " ++ description
  | .checksumMismatch expected actual =>
    "Checksum mismatch: expected " ++ byteList expected ++ ", got " ++ byteList actual
  | .socket description => "Socket error: " ++ description

/-- The full wording of a fault, which names its family. -/
def Fault.message : Fault → String
  | .call fault => "Dispatch error: " ++ fault.message
  | .setup fault => "Registry error: " ++ fault.message
  | .link fault => "RCON error: " ++ fault.message
  | .io description => "I/O error: " ++ description
  | .config description => "Configuration error: " ++ description

/-- The wording of a fault in a reply to the host. -/
def Fault.hostMessage : Fault → String
  | .call fault => fault.message
  | .setup fault => fault.message
  | .link fault => fault.message
  | fault => fault.message

end Switchboard
