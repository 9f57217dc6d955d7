import Switchboard.Handler

/-!
# The registry of handlers

Handlers by protocol name. A registration looks at the name, initialises the handler without
holding up anybody, and then looks at the name again while it puts the handler in place. The three
steps are definitions of their own (`Registration.step`), because registrations may overlap; a
registration by itself takes them in a row (`Registry.register`).
-/

namespace Switchboard

/-- The handlers by name. -/
abbrev Registry := Std.ExtTreeMap String Handler

/-- What is to be registered, and on what. -/
structure Proposal where
  name : String
  candidate : Candidate
  database : Option DatabaseSession
  args : String

/-- How far a registration has come. -/
inductive Registration where
  | proposed (p : Proposal)
  | admitted (p : Proposal)
  | initialised (name : String) (handler : Handler)
  | finished (name : String) (result : Except SetupFault Unit)

namespace Registration

/-- Takes one step; `linked` says whether a link to the admin console is running. -/
def step (linked : Bool) (r : Registry) : Registration → Registration × Registry
  | proposed p =>
    if r.contains p.name then (finished p.name (.error (.nameTaken p.name)), r)
    else (admitted p, r)
  | admitted p =>
    match p.candidate.init? linked p.database p.args with
    | none => (finished p.name (.error (.initFailed p.name)), r)
    | some handler => (initialised p.name handler, r)
  | initialised name handler =>
    if r.contains name then (finished name (.error (.nameTaken name)), r)
    else (finished name (.ok ()), r.insert name handler)
  | finished name result => (finished name result, r)

/-- The result of a registration, once it has one. -/
def result? : Registration → Option (Except SetupFault Unit)
  | finished _ result => some result
  | _ => none

end Registration

namespace Registry

/-- Registers a handler. -/
def register (linked : Bool) (p : Proposal) (r : Registry) : Except SetupFault Unit × Registry :=
  let (s, r) := Registration.step linked r (.proposed p)
  let (s, r) := Registration.step linked r s
  let (s, r) := Registration.step linked r s
  (s.result?.getD (.error (.initFailed p.name)), r)

/-- The names in ascending order of code points. -/
def names (r : Registry) : List String :=
  r.keys

end Registry

end Switchboard
