import Switchboard.Command.Parser
import Switchboard.Exchange

/-!
# Host calls

The one entry of the host: a command line and the size of its buffer go in, a reply comes out. A
handler's output that does not fit the buffer is stored, and the reply names the id to collect it
under. What goes wrong is answered with an error token; what was done before it went wrong is
undone step by step, and the steps are those of the result store and the pool.
-/

namespace Switchboard.Exchange

/-- What `9:VERSION` answers. -/
def version : String := "0.1.0"

/-- The handler of a protocol name. -/
def handlerOf (protocol : String) (x : Exchange) : Except Fault Handler :=
  match x.registry[protocol]? with
  | some handler => .ok handler
  | none => .error (.call (.unknownProtocol protocol))

/-- Runs a handler at once. Its output is the reply, or is stored if it leaves less than the
overhead of a `deferred` token in the buffer. -/
def runInline (w : Surroundings) (protocol payload : String) (capacity : Nat) (x : Exchange) :
    Except Fault Outcome × Exchange :=
  match x.dispatch w protocol payload with
  | (.error fault, x) => (.error (.call fault), x)
  | (.ok .panic, x) => (.ok .panic, x)
  | (.ok (.reply text), x) =>
    if text.utf8ByteSize ≤ capacity - Token.overhead then (.ok (.reply text), x)
    else
      match x.store.storeReady text with
      | (.error fault, store) => (.error (.call fault), { x with store })
      | (.ok id, store) => (.ok (.reply (Token.deferred id).render), { x with store })

/-- Has a worker run a handler; the output is dropped. -/
def runBackground (protocol payload : String) (x : Exchange) : Except Fault Outcome × Exchange :=
  match x.handlerOf protocol with
  | .error fault => (.error fault, x)
  | .ok handler =>
    match x.pool.post? ⟨protocol, handler, payload, none⟩ with
    | none => (.error (.call .poolClosed), x)
    | some pool => (.ok (.reply Token.ok.render), { x with pool })

/-- Has a worker run a handler and keep the output. The id is reserved first, and taken back if no
worker will run. -/
def runKept (protocol payload : String) (x : Exchange) : Except Fault Outcome × Exchange :=
  match x.handlerOf protocol with
  | .error fault => (.error fault, x)
  | .ok handler =>
    match x.store.reserve with
    | (.error fault, store) => (.error (.call fault), { x with store })
    | (.ok id, store) =>
      let x := { x with store }
      -- a closed pool leaves an entry that nobody would complete, so it is cancelled
      match x.pool.post? ⟨protocol, handler, payload, some id⟩ with
      | none => (.error (.call .poolClosed), { x with store := x.store.cancel id })
      | some pool => (.ok (.reply (Token.deferred id).render), { x with pool })

/-- The reply to an attempt at collecting. -/
def fetchText : Fetch → String
  | .missing => ""
  | .notReady => Token.notReady.render
  | .tooLarge => Token.tooLarge.render
  | .data text => text

/-- The result of a setup as the result of a call. -/
def setupResult {α β : Type} (family : α → Fault) (r : Except α β × Exchange) :
    Except Fault Outcome × Exchange :=
  match r with
  | (.ok _, x) => (.ok (.reply Token.ok.render), x)
  | (.error fault, x) => (.error (family fault), x)

/-- Carries out an administrative command. -/
def runSystem (w : Surroundings) (command : SystemCommand) (capacity : Nat) (x : Exchange) :
    Except Fault Outcome × Exchange :=
  if command.isSetup && x.locked then (.error (.call .locked), x)
  else
    match command with
    | .version => (.ok (.reply version), x)
    | .outputSize => (.ok (.reply (toString capacity)), x)
    | .lock => (.ok (.reply Token.ok.render), { x with locked := true })
    | .lockStatus => (.ok (.reply (if x.locked then Token.ok else Token.failed).render), x)
    | .startConsole config =>
      match x.startLink w config with
      | (.ok .panic, x) => (.ok .panic, x)
      | r => setupResult .link r
    | .bindDatabase config id => setupResult .setup (x.connectDatabase config id)
    | .addHandler database kind name initArgs =>
      setupResult .setup (x.addHandler name kind database initArgs)

/-- Carries out a command. -/
def execute (w : Surroundings) (command : Command) (capacity : Nat) (x : Exchange) :
    Except Fault Outcome × Exchange :=
  match command with
  | .run .inline protocol payload => x.runInline w protocol payload capacity
  | .run .background protocol payload => x.runBackground protocol payload
  | .run .kept protocol payload => x.runKept protocol payload
  | .take id =>
    let (fetch, store) := x.store.take id capacity
    (.ok (.reply (fetchText fetch)), { x with store })
  | .takeChunk id =>
    let (fetch, store) := x.store.takeChunk id capacity
    (.ok (.reply (fetchText fetch)), { x with store })
  | .system command => x.runSystem w command capacity

/-- Reads and carries out a command line; a fault is not yet put into words. -/
def attempt (w : Surroundings) (line : String) (capacity : Nat) (x : Exchange) :
    Except Fault Outcome × Exchange :=
  match Command.parse line with
  | .error fault => (.error (.call fault), x)
  | .ok command => x.execute w command capacity

/-- Answers a host call. -/
def call (w : Surroundings) (line : String) (capacity : Nat) (x : Exchange) :
    Outcome × Exchange :=
  match x.attempt w line capacity with
  | (.ok outcome, x) => (outcome, x)
  | (.error fault, x) => (.reply (Token.error fault.hostMessage).render, x)

end Switchboard.Exchange
