import Switchboard.Registry
import Switchboard.Results
import Switchboard.Workers

/-!
# The exchange

The state behind all host calls: settings, stored results, database sessions, handlers, the link
to an admin console, the lock and the workers. Opening an exchange checks its settings; setting up
adds to it; workers carry out the tasks it has accepted; shutting down lets them finish and then
gives up the link.
-/

namespace Switchboard

open Admin (Link Endpoint)

/-- A task for a worker. -/
structure Task where
  protocol : String
  handler : Handler
  request : String
  /-- The id to keep the answer under, if it is to be kept. -/
  slot : Option RequestId

/-- An exchange. -/
structure Exchange where
  settings : Settings
  store : ResultStore
  databases : DatabaseSessions
  registry : Registry
  /-- The link to an admin console, once started. -/
  link : Option Link
  locked : Bool
  pool : Pool Task
  stopped : Bool

namespace Exchange

/-! ## Opening -/

/-- The free ids of the settings; `draw` is a random number. -/
def freeIds (s : Settings) (draw : UInt64) : Except CallFault FreeIds :=
  if s.usesRandomIds then FreeIds.ofRandomized s.idRangeStart s.idRangeEnd draw
  else FreeIds.ofRange s.idRangeStart s.idRangeEnd

/-- An exchange with unchecked settings; only the range of ids has to be usable. -/
def create (s : Settings) (pool : Pool Task) (draw : UInt64) : Except CallFault Exchange :=
  (freeIds s draw).map fun ids => {
    settings := s
    store := .ofIds ids
    databases := ∅
    registry := ∅
    link := none
    locked := false
    pool := pool
    stopped := false }

/-- Why an exchange is not opened. -/
inductive OpeningFault where
  | refused (fault : Fault)
  /-- It would have too many workers, and opening it breaks off. -/
  | tooManyWorkers
  deriving DecidableEq, Repr

/-- Opens an exchange. -/
def launch (s : Settings) (processors : Nat) (draw : UInt64) : Except OpeningFault Exchange :=
  match s.invalidity? with
  | some reason => .error (.refused (.config reason.message))
  | none =>
    match Pool.ofSize? (s.workers processors) with
    | none => .error .tooManyWorkers
    | some pool => (create s pool draw).mapError fun fault => .refused (.call fault)

/-! ## Setting up -/

/-- Starts the link to the console of a section; the answer is the link's name. -/
def startLink (w : Surroundings) (configName : String) (x : Exchange) :
    Except LinkFault Outcome × Exchange :=
  if x.link.isSome then (.error .alreadyStarted, x)
  else
    match x.settings.consoles[configName]? with
    | none => (.error (.noConfig configName), x)
    | some c =>
      match Endpoint.ofSection w.lookup c with
      | .error fault => (.error fault, x)
      | .ok endpoint =>
        match Link.start? configName endpoint (w.clock.now * 1000).toNat with
        | none => (.ok .panic, x)
        | some link => (.ok (.reply link.name), { x with link := some link })

/-- Queues a command on the link. -/
def enqueue (text : String) (x : Exchange) : Except LinkFault Unit × Exchange :=
  match x.link with
  | none => (.error .notStarted, x)
  | some l => (.ok (), { x with link := some (l.enqueue text) })

/-- Gives up the link. -/
def stopLink (x : Exchange) : Exchange :=
  { x with link := none }

/-- Binds a database section to a session id. -/
def connectDatabase (configName id : String) (x : Exchange) :
    Except SetupFault DatabaseSession × Exchange :=
  match x.databases.connect x.settings configName id with
  | .error fault => (.error fault, x)
  | .ok (session, databases) => (.ok session, { x with databases })

/-- The database session that a registration names, if it names one. -/
def sessionOf (database : Option String) (x : Exchange) :
    Except SetupFault (Option DatabaseSession) :=
  match database with
  | none => .ok none
  | some id => (x.databases.checkout id).map some

/-- Registers a handler on a database session. -/
def registerOn (name : String) (candidate : Candidate) (database : Option DatabaseSession)
    (args : String) (x : Exchange) : Except SetupFault Unit × Exchange :=
  let (result, registry) := x.registry.register x.link.isSome ⟨name, candidate, database, args⟩
  (result, { x with registry })

/-- Registers a handler of a built-in kind. A taken name is reported before anything else. -/
def addHandler (name kind : String) (database : Option String) (args : String) (x : Exchange) :
    Except SetupFault Unit × Exchange :=
  if x.registry.contains name then (.error (.nameTaken name), x)
  else
    match x.sessionOf database with
    | .error fault => (.error fault, x)
    | .ok session =>
      match HandlerKind.ofName? kind with
      | none => (.error (.unknownKind kind), x)
      | some kind => x.registerOn name (.builtin kind) session args

/-- Registers an engine from outside. A missing session is reported before anything else. -/
def addEngine (name : String) (engine : Engine) (database : Option String) (args : String)
    (x : Exchange) : Except SetupFault Unit × Exchange :=
  match x.sessionOf database with
  | .error fault => (.error fault, x)
  | .ok session => x.registerOn name (.engine engine) session args

/-- Runs a handler at once. -/
def dispatch (w : Surroundings) (name request : String) (x : Exchange) :
    Except CallFault Outcome × Exchange :=
  match x.registry[name]? with
  | none => (.error (.unknownProtocol name), x)
  | some handler =>
    let (outcome, link) := handler.execute w request x.link
    (.ok outcome, { x with link })

/-- Publishes the text of an issued id. -/
def submit (id : RequestId) (text : String) (x : Exchange) : Exchange :=
  { x with store := x.store.complete id text }

/-! ## Working -/

/-- The text that is kept when a handler breaks off. -/
def panicText : String :=
  (Token.error "Protocol panicked").render

/-- The text that is kept for an outcome. -/
def keptText : Outcome → String
  | .reply text => text
  | .panic => panicText

/-- A worker takes a task. -/
def startTask? (x : Exchange) : Option Exchange :=
  x.pool.start?.map fun r => { x with pool := r.2 }

/-- Carries out a task that a worker is done with. -/
def perform (w : Surroundings) (task : Task) (x : Exchange) : Exchange :=
  let (outcome, link) := task.handler.execute w task.request x.link
  let x := { x with link }
  match task.slot with
  | none => x
  | some id => x.submit id (keptText outcome)

/-- The worker with the task at place `i` finishes it. -/
def finishTask? (w : Surroundings) (i : Nat) (x : Exchange) : Option Exchange :=
  (x.pool.finish? i).map fun r => perform w r.1 { x with pool := r.2 }

@[simp] theorem perform_pool (w : Surroundings) (task : Task) (x : Exchange) :
    (perform w task x).pool = x.pool := by
  unfold perform
  cases task.slot <;> rfl

/-- One step of the workers: a task that is not held up is finished, or else one is taken. -/
def workStep? (w : Surroundings) (held : Task → Bool) (x : Exchange) : Option Exchange :=
  ((x.pool.running.findIdx? (!held ·)).bind (x.finishTask? w)).or x.startTask?

theorem effort_of_startTask? {x y : Exchange} (h : x.startTask? = some y) :
    y.pool.effort < x.pool.effort := by
  obtain ⟨r, hr, rfl⟩ := Option.map_eq_some_iff.1 h
  exact Nat.lt_of_succ_le (Nat.le_of_eq (Pool.effort_of_start? hr))

theorem effort_of_finishTask? {w : Surroundings} {i : Nat} {x y : Exchange}
    (h : x.finishTask? w i = some y) : y.pool.effort < x.pool.effort := by
  obtain ⟨r, hr, rfl⟩ := Option.map_eq_some_iff.1 h
  rw [perform_pool]
  exact Nat.lt_of_succ_le (Nat.le_of_eq (Pool.effort_of_finish? hr))

theorem effort_of_workStep? {w : Surroundings} {held : Task → Bool} {x y : Exchange}
    (h : x.workStep? w held = some y) : y.pool.effort < x.pool.effort := by
  rcases Option.or_eq_some_iff.1 h with h | ⟨_, h⟩
  · obtain ⟨i, _, hi⟩ := Option.bind_eq_some_iff.1 h
    exact effort_of_finishTask? hi
  · exact effort_of_startTask? h

/-- Lets the workers go on until every task that is left is held up or waits behind one that is. -/
def work (w : Surroundings) (held : Task → Bool) (x : Exchange) : Exchange :=
  match _h : x.workStep? w held with
  | some y => y.work w held
  | none => x
termination_by x.pool.effort
decreasing_by exact effort_of_workStep? _h

/-- Lets the workers finish everything. -/
def workOff (w : Surroundings) (x : Exchange) : Exchange :=
  x.work w fun _ => false

/-! ## Shutting down -/

/-- Refuses further tasks. -/
def close (x : Exchange) : Exchange :=
  { x with pool := x.pool.close, stopped := true }

/-- Refuses further tasks, lets the workers finish, and gives up the link. A second time nothing
happens. -/
def shutdown (w : Surroundings) (x : Exchange) : Exchange :=
  if x.stopped then x else (x.close.workOff w).stopLink

end Exchange

end Switchboard
