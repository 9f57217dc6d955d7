import Switchboard.Admin.Link
import Switchboard.Database
import Switchboard.Handler.Misc

/-!
# Handlers

What runs behind a protocol name. Two kinds are built in: small utilities, and a relay that queues
each request as a command for the admin console. Engines from outside plug in with an
initialisation that may fail and yields how requests are answered.
-/

namespace Switchboard

open Admin (Link)

/-- A built-in kind of handler. -/
inductive HandlerKind where
  | misc
  | relay
  deriving DecidableEq, Repr

namespace HandlerKind

/-- The name of a kind. -/
def name : HandlerKind → String
  | misc => "MISC"
  | relay => "RCON"

/-- The kind of a name; ASCII letters of either case count alike. -/
def ofName? (s : String) : Option HandlerKind :=
  [misc, relay].find? fun k => s.toList.map Char.toUpper == k.name.toList

end HandlerKind

/-- An engine from outside, by its initialisation: from the database session it is registered on
and the arguments to how it answers requests, or to a refusal. -/
structure Engine where
  init : Option DatabaseSession → String → Option (String → Outcome)

/-- A handler that is ready for requests. -/
inductive Handler where
  | misc
  | relay
  | engine (answer : String → Outcome)

/-- A handler before its initialisation. -/
inductive Candidate where
  | builtin (kind : HandlerKind)
  | engine (e : Engine)

/-- Initialises a handler. The relay needs a running link. -/
def Candidate.init? (linked : Bool) (database : Option DatabaseSession) (args : String) :
    Candidate → Option Handler
  | builtin .misc => some .misc
  | builtin .relay => if linked then some .relay else none
  | engine e => (e.init database args).map .engine

/-- Answers a request. The relay queues it on the link, if there is one. -/
def Handler.execute (w : Surroundings) (request : String) (link : Option Link) :
    Handler → Outcome × Option Link
  | misc => (Misc.execute w request, link)
  | relay =>
    match link with
    | some l => (.reply Token.ok.render, some (l.enqueue request))
    | none => (.reply (Token.error LinkFault.notStarted.message).render, none)
  | engine answer => (answer request, link)

end Switchboard
