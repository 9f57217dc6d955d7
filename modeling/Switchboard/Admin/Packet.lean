import Switchboard.Admin.Datagram
import Switchboard.Fault

/-!
# Packets of the admin console

What is sent to the console (`ClientPacket`, `encode`) and what comes from it (`ServerPacket`,
`decode`). A command's answer may come in parts; a part starts with a zero byte, the number of
parts and its own place among them.
-/

namespace Switchboard.Admin

/-- A packet for the console. -/
inductive ClientPacket where
  | login (password : String)
  /-- A command; the empty one keeps the session alive. -/
  | command (sequence : UInt8) (text : String)
  | acknowledge (sequence : UInt8)
  deriving DecidableEq, Repr

/-- The datagram of a packet for the console. -/
def ClientPacket.encode : ClientPacket → List UInt8
  | login password => frame .login (Text.Utf8.encode password)
  | command sequence text => frame .command (sequence :: Text.Utf8.encode text)
  | acknowledge sequence => frame .serverMessage [sequence]

/-- Number of parts of an answer, and the place of one of them. -/
structure PartHeader where
  total : UInt8
  index : UInt8
  deriving DecidableEq, Repr

/-- A packet from the console. -/
inductive ServerPacket where
  | loginResponse (success : Bool)
  /-- The answer to a command, or a part of it. -/
  | commandResponse (sequence : UInt8) (part : Option PartHeader) (data : List UInt8)
  | serverMessage (sequence : UInt8) (message : List UInt8)
  deriving DecidableEq, Repr

/-- Why a datagram is no packet. -/
inductive Defect where
  | tooShort (length : Nat)
  | badSignature
  | badMarker (byte : UInt8)
  | checksumMismatch (expected actual : List UInt8)
  | emptyLogin
  | missingSequence
  /-- The header of a part counts no parts, or places the part beyond them. -/
  | badPart (header : PartHeader)
  | unknownKind (byte : UInt8)
  deriving DecidableEq, Repr

/-- The fault that a defect is reported as. -/
def Defect.toFault : Defect → LinkFault
  | tooShort n => .malformedPacket ("datagram too short: " ++ toString n ++ " bytes")
  | badSignature => .malformedPacket "bad signature"
  | badMarker b => .malformedPacket ("bad payload marker 0x" ++ Text.hexByte b)
  | checksumMismatch expected actual => .checksumMismatch expected actual
  | emptyLogin => .malformedPacket "empty login response"
  | missingSequence => .malformedPacket "missing sequence"
  | badPart h => .malformedPacket ("part " ++ toString h.index ++ " of " ++ toString h.total)
  | unknownKind b => .malformedPacket ("unknown packet type 0x" ++ Text.hexByte b)

namespace ServerPacket

/-- Reads what follows the sequence number of a command response. -/
def readResponse (sequence : UInt8) (rest : List UInt8) : Except Defect ServerPacket :=
  match rest with
  | 0 :: total :: index :: data =>
    if total = 0 ∨ total ≤ index then .error (.badPart ⟨total, index⟩)
    else .ok (.commandResponse sequence (some ⟨total, index⟩) data)
  | rest => .ok (.commandResponse sequence none rest)

/-- Reads the body of a packet of the given kind. -/
def readBody (kind : PacketKind) (body : List UInt8) : Except Defect ServerPacket :=
  match kind, body with
  | .login, [] => .error .emptyLogin
  | .login, status :: _ => .ok (.loginResponse (status == 1))
  | .command, [] => .error .missingSequence
  | .command, sequence :: rest => readResponse sequence rest
  | .serverMessage, [] => .error .missingSequence
  | .serverMessage, sequence :: message => .ok (.serverMessage sequence message)

/-- Reads a datagram. Of several defects the first in the order of the fields is reported, but the
checksum is looked at before the kind. -/
def decode (datagram : List UInt8) : Except Defect ServerPacket :=
  match datagram with
  | s₀ :: s₁ :: c₀ :: c₁ :: c₂ :: c₃ :: marker :: kind :: body =>
    -- the order of the tests is part of the format: it decides which defect is reported
    if [s₀, s₁] ≠ signature then .error .badSignature
    else if marker ≠ payloadMarker then .error (.badMarker marker)
    else
      let expected := checksum (marker :: kind :: body)
      if expected ≠ [c₀, c₁, c₂, c₃] then .error (.checksumMismatch expected [c₀, c₁, c₂, c₃])
      else
        match PacketKind.ofByte? kind with
        | some kind => readBody kind body
        | none => .error (.unknownKind kind)
  | short => .error (.tooShort short.length)

end ServerPacket

end Switchboard.Admin
