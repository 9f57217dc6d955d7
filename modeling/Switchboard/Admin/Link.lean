import Switchboard.Admin.Endpoint

/-!
# Links to an admin console

A link keeps a session with an admin console alive and sends the commands that are queued on it,
first in, first out. It is a machine that is driven by events: what the network answers and what
time it is are part of the events, and what the link did to the network and whom it told is part of
its output (`Effect`).

One round of the loop waits for a datagram, handles it, looks at the idle time, sends the queued
commands and publishes the state. Each round is cut into steps where others may act in between:
commands may be queued, and the link may be stopped, before every step, so also between the moment
when the queue is drained and the moment when unsent commands are put back.
-/

namespace Switchboard.Admin

/-- What listeners are told. -/
inductive Message where
  | commandResponse (sequence : UInt8) (text : String)
  | serverEvent (sequence : UInt8) (text : String)
  deriving DecidableEq, Repr

/-- What a link did. -/
inductive Effect where
  /-- It opened a socket, or failed to. -/
  | opened (success : Bool)
  /-- It handed a packet to the socket, which took it or refused it. -/
  | sent (packet : ClientPacket) (success : Bool)
  | published (message : Message)
  deriving DecidableEq, Repr

/-- Where a link stands in its loop. -/
inductive Phase where
  | connecting
  | looping
  | waiting
  | received
  | polling
  | draining
  /-- Sending these commands, which are no longer queued. -/
  | flushing (unsent : List String)
  /-- About to put these commands back, the first of which was refused. -/
  | requeueing (unsent : List String)
  | publishing
  | ended
  deriving DecidableEq, Repr

/-- How a wait ends. -/
inductive Arrival where
  /-- The time is over, or somebody woke the link. -/
  | silence
  | datagram (bytes : List UInt8)
  | failure
  deriving DecidableEq, Repr

/-- What a network answers to an attempt at a login or a keepalive. -/
structure Answers where
  /-- Whether a socket can be opened, if none is open. -/
  opens : Bool
  /-- Whether the packet is taken. -/
  sends : Bool
  deriving DecidableEq, Repr

/-- What happens to a link. -/
inductive LinkEvent where
  | proceed
  | connect (answers : Answers) (now : Nat)
  /-- A wait ends; `acknowledges` says whether the socket takes an acknowledgement. -/
  | receive (arrival : Arrival) (acknowledges : Bool) (now : Nat)
  | poll (answers : Answers) (now : Nat)
  | send (success : Bool) (now : Nat)
  | enqueue (text : String)
  | stop
  deriving DecidableEq, Repr

/-- A link. -/
structure Link where
  name : String
  endpoint : Endpoint
  /-- The queued commands, first in first out. -/
  outbox : List String
  sequence : UInt8
  running : Bool
  /-- The state of the login as others see it. -/
  published : LoginState
  session : Session
  socketOpen : Bool
  phase : Phase

namespace Link

/-- A link before its first login. -/
def start (name : String) (endpoint : Endpoint) (now : Nat) : Link where
  name := name
  endpoint := endpoint
  outbox := []
  sequence := 0
  running := true
  published := .disconnected
  session := .start endpoint.timings now
  socketOpen := false
  phase := .connecting

/-- Starts a link. A thread of the link's name is to run it, and no thread's name holds a NUL. -/
def start? (name : String) (endpoint : Endpoint) (now : Nat) : Option Link :=
  if '\x00' ∈ name.toList then none else some (start name endpoint now)

/-- Queues a command. -/
def enqueue (text : String) (l : Link) : Link :=
  { l with outbox := l.outbox ++ [text] }

/-- Asks the loop to end. -/
def stop (l : Link) : Link :=
  { l with running := false }

/-- Shows the state of the login to others. -/
def publish (l : Link) : Link :=
  { l with published := l.session.state }

/-- Gives up the socket and with it the login. -/
def dropSocket (now : Nat) (l : Link) : Link :=
  { l with socketOpen := false, session := l.session.onSocketError now }.publish

/-- Hands a packet to the socket. Without a socket nothing is tried; a socket that refuses is given
up. -/
def transmit (packet : ClientPacket) (success : Bool) (now : Nat) (l : Link) :
    Bool × List Effect × Link :=
  if l.socketOpen then
    if success then (true, [.sent packet true], l)
    else (false, [.sent packet false], l.dropSocket now)
  else (false, [], l)

/-- Takes the next sequence number. They come round after 256 commands. -/
def takeSequence (l : Link) : UInt8 × Link :=
  (l.sequence, { l with sequence := l.sequence + 1 })

/-- Sends a login on a fresh or an open socket. -/
def connect (answers : Answers) (now : Nat) (l : Link) : List Effect × Link :=
  if !l.socketOpen && !answers.opens then
    ([.opened false], { l with session := l.session.onSocketError now }.publish)
  else
    let opening := if l.socketOpen then [] else [.opened true]
    let l := { l with socketOpen := true, session := l.session.connect now }
    let (_, effects, l) := l.transmit (.login l.endpoint.password) answers.sends now
    (opening ++ effects, l.publish)

/-- Handles a datagram. What is no packet is dropped. A message of the server is acknowledged
before the listeners are told. -/
def handle (datagram : List UInt8) (acknowledges : Bool) (now : Nat) (l : Link) :
    List Effect × Link :=
  match ServerPacket.decode datagram with
  | .error _ => ([], l)
  | .ok packet =>
    let (inbound, session) := l.session.onPacket packet now
    let l := { l with session }
    match inbound with
    | .response sequence text => ([.published (.commandResponse sequence text)], l.publish)
    | .event sequence text =>
      let (_, effects, l) := l.transmit (.acknowledge sequence) acknowledges now
      (effects ++ [.published (.serverEvent sequence text)], l.publish)
    | .loggedIn | .loginRejected | .stored _ | .ignored => ([], l.publish)

/-- Handles the end of a wait. Without a socket nothing can come. -/
def receive (arrival : Arrival) (acknowledges : Bool) (now : Nat) (l : Link) :
    List Effect × Link :=
  if l.socketOpen then
    match arrival with
    | .silence => ([], l)
    | .datagram bytes => l.handle bytes acknowledges now
    | .failure => ([], l.dropSocket now)
  else ([], l)

/-- Looks at the idle time and does what is due. -/
def poll (answers : Answers) (now : Nat) (l : Link) : List Effect × Link :=
  let (action, session) := l.session.poll now
  let l := { l with session }
  match action with
  | .nothing => ([], l)
  | .sendKeepAlive =>
    let (sequence, l) := l.takeSequence
    let (_, effects, l) := l.transmit (.command sequence "") answers.sends now
    (effects, l)
  | .reconnect => l.connect answers now

/-- A step that needs nothing from outside. -/
def proceed (l : Link) : Link :=
  match l.phase with
  | .looping =>
    if l.running then { l with phase := .waiting }
    else { l with phase := .ended, published := .disconnected }
  | .received =>
    if l.running then { l with phase := .polling }
    else { l with phase := .ended, published := .disconnected }
  | .draining =>
    if l.session.canSend then { l with phase := .flushing l.outbox, outbox := [] }
    else { l with phase := .publishing }
  | .flushing [] => { l with phase := .publishing }
  | .requeueing unsent => { l with phase := .publishing, outbox := unsent ++ l.outbox }
  | .publishing => { l.publish with phase := .looping }
  | .connecting | .waiting | .polling | .flushing (_ :: _) | .ended => l

/-- Tries the next drained command; when it is refused, it and the rest are to be put back. -/
def send (success : Bool) (now : Nat) (l : Link) : List Effect × Link :=
  match l.phase with
  | .flushing (text :: rest) =>
    let (sequence, l) := l.takeSequence
    let (taken, effects, l) := l.transmit (.command sequence text) success now
    (effects, { l with phase := if taken then .flushing rest else .requeueing (text :: rest) })
  | _ => ([], l)

/-- One step. An event that does not fit the phase changes nothing. -/
def step (event : LinkEvent) (l : Link) : List Effect × Link :=
  match event, l.phase with
  | .enqueue text, _ => ([], l.enqueue text)
  | .stop, _ => ([], l.stop)
  | .proceed, _ => ([], l.proceed)
  | .connect answers now, .connecting =>
    let (effects, l) := l.connect answers now
    (effects, { l with phase := .looping })
  | .receive arrival acknowledges now, .waiting =>
    let (effects, l) := l.receive arrival acknowledges now
    (effects, { l with phase := .received })
  | .poll answers now, .polling =>
    let (effects, l) := l.poll answers now
    (effects, { l with phase := .draining })
  | .send success now, .flushing _ => l.send success now
  | _, _ => ([], l)

/-- A run, with everything that the link did. -/
def run : List LinkEvent → Link → List Effect × Link
  | [], l => ([], l)
  | event :: events, l =>
    let (effects, l) := l.step event
    let (later, l) := l.run events
    (effects ++ later, l)

end Link

end Switchboard.Admin
