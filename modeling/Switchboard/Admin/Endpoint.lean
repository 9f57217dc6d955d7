import Switchboard.Address
import Switchboard.Admin.Session
import Switchboard.Settings

/-!
# Endpoints

Where an admin console is and how it is talked to, resolved from a section of the settings.
-/

namespace Switchboard.Admin

/-- Everything that a link needs to know about its console. -/
structure Endpoint where
  address : SocketAddress
  password : String
  timings : Timings
  deriving DecidableEq, Repr

/-- The waiting times of a section, in milliseconds; a reception waits for a second at least. -/
def Timings.ofSection (c : ConsoleSection) : Timings where
  keepalive := 1000 * c.keepaliveSecs
  timeout := 1000 * c.timeoutSecs
  receiveTimeout := 1000 * max c.receiveTimeoutSecs 1
  multipartTtl := 1000 * c.multipartTtlSecs

/-- The wording of a failure to find a host. -/
def lookupFailure (host : String) : String :=
  if host.toList.contains '\x00' then "file name contained an unexpected NUL byte"
  else "failed to lookup address information: Name or service not known"

/-- Resolves a section. A host that is no literal address is looked up by name. -/
def Endpoint.ofSection (lookup : String → Option Ip) (c : ConsoleSection) :
    Except LinkFault Endpoint :=
  match (Ip.ofLiteral? c.address).or (lookup c.address) with
  | some ip => .ok ⟨⟨ip, c.port⟩, c.password, .ofSection c⟩
  | none =>
    .error (.invalidAddress
      (c.address ++ ":" ++ toString c.port ++ ": " ++ lookupFailure c.address))

end Switchboard.Admin
