import Switchboard.Exchange.Call

/-!
# Runs of an exchange

Everything that can happen to an exchange, one event at a time, so that host calls, setup from
outside and the steps of the workers can follow each other in any order. Shutting down is two
events: the pool closes, and once the workers are idle the link is given up.
-/

namespace Switchboard

/-- What happens to an exchange. -/
inductive ExchangeEvent where
  | call (w : Surroundings) (line : String) (capacity : Nat)
  | start
  /-- The worker with the task at this place finishes it. -/
  | finish (w : Surroundings) (place : Nat)
  | submit (id : RequestId) (text : String)
  | enqueue (text : String)
  | addEngine (name : String) (engine : Engine) (database : Option String) (args : String)
  | link (event : Admin.LinkEvent)
  | close
  | stopLink

namespace Exchange

/-- One step; host calls have an outcome. An event that is not possible changes nothing. -/
def step (event : ExchangeEvent) (x : Exchange) : Option Outcome × Exchange :=
  match event with
  | .call w line capacity =>
    let (outcome, x) := x.call w line capacity
    (some outcome, x)
  | .start => (none, x.startTask?.getD x)
  | .finish w place => (none, (x.finishTask? w place).getD x)
  | .submit id text => (none, x.submit id text)
  | .enqueue text => (none, (x.enqueue text).2)
  | .addEngine name engine database args => (none, (x.addEngine name engine database args).2)
  | .link event => (none, { x with link := x.link.map fun l => (l.step event).2 })
  | .close => (none, x.close)
  | .stopLink => (none, if x.stopped && x.pool.isIdle then x.stopLink else x)

/-- A run, with the outcomes of the host calls in it. -/
def run : List ExchangeEvent → Exchange → List Outcome × Exchange
  | [], x => ([], x)
  | event :: events, x =>
    let (outcome?, x) := x.step event
    let (outcomes, x) := x.run events
    (outcome?.toList ++ outcomes, x)

end Exchange

end Switchboard
