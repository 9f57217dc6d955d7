import Switchboard.Admin.Packet
import Switchboard.Admin.Reassembly

/-!
# Sessions with the admin console

The state of a login, without sockets and clocks of its own: packets and the time of day are fed
in, and what is to be sent comes out. One keepalive is due after an idle time, a new login after a
longer one, and after a refusal or a network failure a new attempt waits for the receive timeout.

Times are milliseconds; the age of what lies in the future is 0.
-/

namespace Switchboard.Admin

/-- Where the login stands. -/
inductive LoginState where
  | disconnected
  | awaitingLogin
  | loggedIn
  deriving DecidableEq, Repr

/-- The waiting times of a session. -/
structure Timings where
  /-- Idle time after which one keepalive is sent. -/
  keepalive : Nat
  /-- Idle time after which the session counts as dead. -/
  timeout : Nat
  /-- How long one reception waits, and how long a retry waits. -/
  receiveTimeout : Nat
  /-- How long an incomplete answer is held. -/
  multipartTtl : Nat
  deriving DecidableEq, Repr

/-- What is due after an idle check. -/
inductive IdleAction where
  | nothing
  | sendKeepAlive
  | reconnect
  deriving DecidableEq, Repr

/-- What a received packet means. -/
inductive Inbound where
  | loggedIn
  | loginRejected
  | response (sequence : UInt8) (message : String)
  /-- A part of an answer was stored, more are to come. -/
  | stored (sequence : UInt8)
  | event (sequence : UInt8) (message : String)
  | ignored
  deriving DecidableEq, Repr

/-- A session. -/
structure Session where
  state : LoginState
  timings : Timings
  /-- When something last happened. -/
  lastActivity : Nat
  /-- Whether a keepalive was sent since then. -/
  keepaliveSent : Bool
  reassembly : Reassembly

namespace Session

/-- A session before its first login. -/
def start (timings : Timings) (now : Nat) : Session where
  state := .disconnected
  timings := timings
  lastActivity := now
  keepaliveSent := false
  reassembly := .empty timings.multipartTtl

/-- Whether commands may be sent. -/
def canSend (s : Session) : Bool :=
  s.state = .loggedIn

/-- Number of incomplete answers. -/
def pending (s : Session) : Nat :=
  s.reassembly.held.size

/-- Something happened: the idle time starts again. -/
def touch (now : Nat) (s : Session) : Session :=
  { s with lastActivity := now, keepaliveSent := false }

/-- A login is being sent. -/
def connect (now : Nat) (s : Session) : Session :=
  { s with state := .awaitingLogin, lastActivity := now, keepaliveSent := false }

/-- The network failed. -/
def onSocketError (now : Nat) (s : Session) : Session :=
  { s with state := .disconnected, lastActivity := now }

/-- A packet came. -/
def onPacket (packet : ServerPacket) (now : Nat) (s : Session) : Inbound × Session :=
  match packet with
  | .loginResponse success =>
    if s.state ≠ .awaitingLogin then (.ignored, s)
    else if success then (.loggedIn, { s.touch now with state := .loggedIn })
    else (.loginRejected, { s.touch now with state := .disconnected })
  | .commandResponse sequence part data =>
    if s.state ≠ .loggedIn then (.ignored, s)
    else
      match part with
      | none => (.response sequence (Text.Utf8.decodeLossy data), s.touch now)
      | some part =>
        match s.reassembly.insert sequence part.total part.index data now with
        | (some whole, r) =>
          (.response sequence (Text.Utf8.decodeLossy whole), { s.touch now with reassembly := r })
        | (none, r) => (.stored sequence, { s.touch now with reassembly := r })
  | .serverMessage sequence message =>
    if s.state ≠ .loggedIn then (.ignored, s)
    else (.event sequence (Text.Utf8.decodeLossy message), s.touch now)

/-- The idle time is looked at; what is due comes out. Incomplete answers that are too old are
dropped on the way. -/
def poll (now : Nat) (s : Session) : IdleAction × Session :=
  let s := { s with reassembly := s.reassembly.sweep now }
  let idle := now - s.lastActivity
  match s.state with
  | .disconnected =>
    if s.timings.receiveTimeout ≤ idle then (.reconnect, s) else (.nothing, s)
  | .awaitingLogin | .loggedIn =>
    if s.timings.timeout ≤ idle then (.reconnect, { s with state := .disconnected })
    else if s.state = .loggedIn ∧ s.timings.keepalive ≤ idle ∧ s.keepaliveSent = false then
      (.sendKeepAlive, { s with keepaliveSent := true })
    else (.nothing, s)

end Session

end Switchboard.Admin
