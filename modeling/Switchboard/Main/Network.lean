import Std.Async.DNS
import Std.Async.UDP
import Switchboard.Exchange.Run

/-!
# Networking of the terminal

Drives the link of an exchange over a UDP socket. Which event comes next is read off the link's
phase. What the event will attempt is what it would do if everything succeeded; that is carried
out, and the event is then fed to the link with what came of it.
-/

namespace Switchboard.Main

open Admin
open Std.Async
open Std.Net (IPAddr IPv4Addr IPv6Addr)

/-! ## Addresses -/

/-- An internet address for a socket. -/
def socketAddress (a : SocketAddress) : Std.Net.SocketAddress :=
  match a.ip with
  | .v4 bytes => .v4 ⟨⟨.ofFn fun i => .ofNat (bytes.getD i.1 0)⟩, a.port⟩
  | .v6 groups _ => .v6 ⟨⟨.ofFn fun i => .ofNat (groups.getD i.1 0)⟩, a.port⟩

/-- An internet address from a look-up. -/
def ofIpAddress : IPAddr → Ip
  | .v4 a => .v4 (a.octets.toList.map (·.toNat))
  | .v6 a => .v6 (a.segments.toList.map (·.toNat)) 0

/-- The address of a host name. -/
def lookupHost (host : String) : IO (Option Ip) := do
  try
    let found ← (DNS.getAddrInfo host "").block
    return found.toList.head?.map ofIpAddress
  catch _ => return none

/-! ## Links -/

/-- The exchange that the terminal shares with its link, and the socket of the link. -/
structure Wire where
  exchange : IO.Ref Exchange
  socket : IO.Ref (Option UDP.Socket)

/-- Opens a socket to a console. -/
def openSocket (address : SocketAddress) : IO UDP.Socket := do
  let socket ← UDP.Socket.mk
  socket.connect (socketAddress address)
  return socket

/-- Carries out what a link attempts, in order and up to the first failure. -/
def carryOut (wire : Wire) (address : SocketAddress) : List Effect → IO Answers
  | [] => return ⟨true, true⟩
  | .opened _ :: rest => do
    try
      wire.socket.set (some (← openSocket address))
      carryOut wire address rest
    catch _ => return ⟨false, false⟩
  | .sent packet _ :: rest => do
    try
      match ← wire.socket.get with
      | some socket => (socket.send ⟨packet.encode.toArray⟩).block
      | none => return ⟨true, false⟩
      carryOut wire address rest
    catch _ => return ⟨true, false⟩
  | .published _ :: rest => carryOut wire address rest

/-- A datagram that has come already, or the failure of the socket. -/
def arrived (socket : UDP.Socket) : IO (Option Arrival) := do
  try
    (Selectable.tryOne #[.case (socket.recvSelector (.ofNat maxDatagram)) fun (data, _) =>
      return .datagram data.toList]).block
  catch _ => return some .failure

/-- How long a link sleeps before it looks at its socket and its queue again, in milliseconds. -/
def slice : Nat := 20

/-- Waits for a datagram, until the time is over or somebody wakes the link: queues a command or
stops it. -/
partial def await (wire : Wire) (queued left : Nat) : IO Arrival := do
  let some link := (← wire.exchange.get).link | return .silence
  let arrival ← match ← wire.socket.get with
    | some socket => arrived socket
    | none => pure none
  match arrival with
  | some arrival => return arrival
  | none =>
    if left = 0 ∨ !link.running ∨ queued < link.outbox.length then return .silence
    let time := min slice left
    IO.sleep time.toUInt32
    await wire queued (left - time)

/-- The next event of a link, once what it attempts is carried out. -/
def nextEvent (wire : Wire) (link : Link) : IO LinkEvent := do
  let attempt (event : LinkEvent) : IO Answers :=
    carryOut wire link.endpoint.address (link.step event).1
  match link.phase with
  | .connecting =>
    let now ← IO.monoMsNow
    return .connect (← attempt (.connect ⟨true, true⟩ now)) now
  | .waiting =>
    let arrival ← await wire link.outbox.length link.endpoint.timings.receiveTimeout
    let now ← IO.monoMsNow
    return .receive arrival (← attempt (.receive arrival true now)).sends now
  | .polling =>
    let now ← IO.monoMsNow
    return .poll (← attempt (.poll ⟨true, true⟩ now)) now
  | .flushing (_ :: _) =>
    let now ← IO.monoMsNow
    return .send (← attempt (.send true now)).sends now
  | _ => return .proceed

/-- Drives a link until its loop ends or the exchange gives it up. -/
partial def drive (wire : Wire) : IO Unit := do
  match (← wire.exchange.get).link with
  | none => wire.socket.set none
  | some link =>
    if link.phase = .ended then wire.socket.set none
    else
      let event ← nextEvent wire link
      wire.exchange.modify fun x => (x.step (.link event)).2
      let opened := ((← wire.exchange.get).link.map (·.socketOpen)).getD false
      if !opened then wire.socket.set none
      drive wire

end Switchboard.Main
