import Switchboard.Proofs.Exchange.Steps

/-!
# Where a task is

Ids are issued again and two tasks can carry the same request, so a task is told from another only
by where it stands among the accepted ones. This module follows it there:

* **`Place`**, **`Pool.at?`**: a place in the queue or among the running tasks. A worker that takes
  the head of the queue and one that is done move the places (`at?_start`, `at?_finish`); whatever
  is posted joins behind (`at?_joined`).
* **`Occurrence`**: an event of an exchange, or a change in how engines answer. Engines may keep a
  state of their own, so how they answer may be another function before every event.
* **`CallEffect`**: what a host call does to results and tasks, with the exact stores and pools.
* **`Happens`**: what an occurrence does to them, one case each for calls, workers, submissions,
  closing and changes of engines; nothing else touches them (`happens_after`).
* **`follow`**: the place of a task after an occurrence. `at?_follow` shows that the same task is
  there, until a worker is done with it.
-/

namespace Switchboard

/-! ## Places -/

/-- Where an accepted task is. -/
inductive Place where
  | queued (i : Nat)
  | running (k : Nat)
  deriving DecidableEq, Repr

namespace Pool

variable {τ : Type} {p q : Pool τ} {task task' : τ} {place place' : Place}

def at? (place : Place) (p : Pool τ) : Option τ :=
  match place with
  | .queued i => p.queue[i]?
  | .running k => p.running[k]?

/-- Places once a worker has taken the head of the queue. -/
def afterStart (p : Pool τ) : Place → Place
  | .queued 0 => .running p.running.length
  | .queued (i + 1) => .queued i
  | .running k => .running k

/-- Places once the worker with the task at place `k` is done with it. -/
def afterFinish (k : Nat) : Place → Option Place
  | .queued i => some (.queued i)
  | .running j => if j = k then none else some (.running (if k < j then j - 1 else j))

theorem at?_start (h : p.start? = some (task', q)) (hat : p.at? place = some task) :
    q.at? (p.afterStart place) = some task := by
  obtain ⟨rest, hqueue, -, rfl⟩ := start?_eq_some_iff.1 h
  cases place with
  | queued i =>
    simp only [at?, hqueue] at hat
    cases i with
    | zero =>
      -- the head of the queue joins the running tasks behind the others
      cases hat
      exact List.getElem?_concat_length
    | succ i => exact hat
  | running k =>
    have hlt : k < p.running.length := (List.getElem?_eq_some_iff.1 hat).1
    exact (List.getElem?_append_left hlt).trans hat

theorem at?_finish {k : Nat} (h : p.finish? k = some (task', q)) (hat : p.at? place = some task)
    (hplace : afterFinish k place = some place') : q.at? place' = some task := by
  obtain ⟨-, rfl⟩ := finish?_eq_some_iff.1 h
  cases place with
  | queued i =>
    cases hplace
    exact hat
  | running j =>
    simp only [afterFinish] at hplace
    split at hplace
    · cases hplace
    · next hne =>
      cases hplace
      show (p.running.eraseIdx k)[if k < j then j - 1 else j]? = some task
      split
      · next hlt =>
        -- the place moves up by one, to where the task is now
        rw [List.getElem?_eraseIdx_of_ge (by omega), Nat.sub_add_cancel (by omega)]
        exact hat
      · next hge =>
        rw [List.getElem?_eraseIdx_of_lt (by omega)]
        exact hat

/-- The accepted tasks stay where they are and these join behind them. A closed pool gets none. -/
structure Joined (p q : Pool τ) (posted : List τ) : Prop where
  queue_eq : q.queue = p.queue ++ posted
  running_eq : q.running = p.running
  closed_eq : p.isOpen = false → q = p

theorem joined_refl (p : Pool τ) : p.Joined p [] :=
  ⟨(List.append_nil _).symm, rfl, fun _ => rfl⟩

theorem joined_of_post? (h : p.post? task = some q) : p.Joined q [task] := by
  obtain ⟨hopen, rfl⟩ := post?_eq_some_iff.1 h
  refine ⟨rfl, rfl, fun hclosed => ?_⟩
  rw [hopen] at hclosed
  cases hclosed

theorem at?_joined {posted : List τ} (h : p.Joined q posted) (hat : p.at? place = some task) :
    q.at? place = some task := by
  cases place with
  | queued i =>
    have hlt : i < p.queue.length := (List.getElem?_eq_some_iff.1 hat).1
    show q.queue[i]? = some task
    rw [h.queue_eq, List.getElem?_append_left hlt]
    exact hat
  | running k =>
    show q.running[k]? = some task
    rw [h.running_eq]
    exact hat

/-- An idle pool has no task anywhere. -/
theorem at?_of_isIdle (h : p.isIdle = true) (place : Place) : p.at? place = none := by
  obtain ⟨hqueue, hrunning⟩ := isIdle_iff.1 h
  cases place with
  | queued i => simp only [at?, hqueue, List.getElem?_nil]
  | running k => simp only [at?, hrunning, List.getElem?_nil]

end Pool

/-! ## Occurrences -/

/-- How engines come to answer: by the name they are registered under, and how they answered. -/
abbrev EngineChange := String → (String → Outcome) → String → Outcome

def Handler.changed (change : (String → Outcome) → String → Outcome) : Handler → Handler
  | engine answer => engine (change answer)
  | misc => misc
  | relay => relay

def Task.changed (change : EngineChange) (task : Task) : Task :=
  { task with handler := task.handler.changed (change task.protocol) }

/-- Something that happens to an exchange. -/
inductive Occurrence where
  | event (event : ExchangeEvent)
  | change (change : EngineChange)

namespace Exchange

variable {x y : Exchange} {range : Interval} {id : RequestId} {place place' : Place} {task : Task}

/-- The exchange once its engines answer in another way, also for the tasks already accepted. -/
def changed (change : EngineChange) (x : Exchange) : Exchange :=
  { x with
    registry := x.registry.map fun name handler => handler.changed (change name)
    pool := { x.pool with
      queue := x.pool.queue.map (Task.changed change)
      running := x.pool.running.map (Task.changed change) } }

def after (o : Occurrence) (x : Exchange) : Exchange :=
  match o with
  | .event event => (x.step event).2
  | .change change => x.changed change

def afterAll (os : List Occurrence) (x : Exchange) : Exchange :=
  os.foldl (fun x o => x.after o) x

theorem afterAll_append (os os' : List Occurrence) (x : Exchange) :
    x.afterAll (os ++ os') = (x.afterAll os).afterAll os' :=
  List.foldl_append

theorem afterAll_concat (os : List Occurrence) (o : Occurrence) (x : Exchange) :
    x.afterAll (os ++ [o]) = (x.afterAll os).after o :=
  afterAll_append os [o] x

theorem afterAll_append_cons (before : List Occurrence) (o : Occurrence)
    (since : List Occurrence) (x : Exchange) :
    x.afterAll (before ++ o :: since) = ((x.afterAll before).after o).afterAll since :=
  afterAll_append before (o :: since) x

/-! ## Calls -/

/-- A call reserves an id: it answers with it, parks a pending entry that was not there, and posts
the task that is to complete it. -/
inductive Reserves (x : Exchange) : Occurrence → RequestId → String → String → Prop where
  | kept {w : Surroundings} {line protocol payload : String} {capacity : Nat} {handler : Handler}
      {id : RequestId} (hparse : Command.parse line = .ok (.run .kept protocol payload))
      (hhandler : x.registry[protocol]? = some handler)
      (hreply : (x.call w line capacity).1 = .reply (Token.deferred id).render)
      (hfresh : id ∉ x.store.entries)
      (hentries : (x.call w line capacity).2.store.entries = x.store.entries.insert id .pending)
      (hqueue : (x.call w line capacity).2.pool.queue =
        x.pool.queue ++ [⟨protocol, handler, payload, some id⟩]) :
      Reserves x (.event (.call w line capacity)) id protocol payload

/-- What a host call does to results and tasks. -/
inductive CallEffect (x : Exchange) (o : Occurrence) (y : Exchange) : Prop where
  | quiet (hquiet : Quiet x y)
  | stored {text : String} {id : RequestId}
      (hstore : x.store.storeReady text = (.ok id, y.store)) (hpool : y.pool = x.pool)
  | fetched {id : RequestId} {fetch : Fetch} (hfetched : x.store.Fetched id fetch y.store)
      (hpool : y.pool = x.pool)
  | posted {task : Task} (hpost : x.pool.post? task = some y.pool) (hstore : y.store = x.store)
  | reserved {task : Task} {id : RequestId} (hreserve : x.store.reserve = (.ok id, y.store))
      (hpost : x.pool.post? task = some y.pool)
      (hreserves : Reserves x o id task.protocol task.request)

theorem callEffect_runInline (w : Surroundings) (protocol payload : String) (capacity : Nat)
    (o : Occurrence) (x : Exchange) :
    CallEffect x o (x.runInline w protocol payload capacity).2 := by
  unfold runInline dispatch
  cases x.registry[protocol]? with
  | none => exact .quiet ⟨rfl, rfl⟩
  | some handler =>
    dsimp only
    generalize handler.execute w payload x.link = answer
    obtain ⟨outcome, link⟩ := answer
    cases outcome with
    | panic => exact .quiet ⟨rfl, rfl⟩
    | reply text =>
      dsimp only
      split
      · exact .quiet ⟨rfl, rfl⟩
      · cases hstore : x.store.storeReady text with
        | mk result store =>
          cases result with
          | error fault => exact .quiet ⟨ResultStore.storeReady_error hstore, rfl⟩
          | ok id => exact .stored hstore rfl

theorem callEffect_runBackground (protocol payload : String) (o : Occurrence) (x : Exchange) :
    CallEffect x o (x.runBackground protocol payload).2 := by
  unfold runBackground
  split
  · exact .quiet ⟨rfl, rfl⟩
  · split
    · exact .quiet ⟨rfl, rfl⟩
    · next pool hpost => exact .posted hpost rfl

section Calls

variable {w : Surroundings} {line : String} {capacity : Nat}

theorem callEffect_runKept {protocol payload : String} (hsound : x.store.Sound range)
    (hparse : Command.parse line = .ok (.run .kept protocol payload)) :
    CallEffect x (.event (.call w line capacity)) (x.runKept protocol payload).2 := by
  have hkept := kept_runKept hsound protocol payload
  have hcall {outcome : Outcome} {y : Exchange}
      (hrun : x.runKept protocol payload = (.ok outcome, y)) :
      x.call w line capacity = (outcome, y) := by
    simp only [call, attempt, hparse, execute, hrun]
  generalize x.runKept protocol payload = result at hkept hcall ⊢
  obtain ⟨reply, y⟩ := result
  dsimp only at hkept ⊢
  cases hkept with
  -- a refused call has left everything as it was, the reserved id included
  | unknown hnone => exact .quiet ⟨rfl, rfl⟩
  | exhausted => exact .quiet ⟨rfl, rfl⟩
  | closed hclosed => exact .quiet ⟨rfl, rfl⟩
  | @accepted handler id store pool hhandler hreserve hpost =>
    obtain ⟨hfresh, hentries⟩ := ResultStore.reserve_ok hsound hreserve
    have hqueue : pool.queue = x.pool.queue ++ [⟨protocol, handler, payload, some id⟩] :=
      (Pool.joined_of_post? hpost).queue_eq
    refine .reserved hreserve hpost (.kept hparse hhandler ?_ hfresh ?_ ?_)
    · rw [hcall rfl]
    · rw [hcall rfl]
      exact hentries
    · rw [hcall rfl]
      exact hqueue

/-- **The effect of a host call**, one case for each command. -/
theorem callEffect_call (hsound : x.store.Sound range) :
    CallEffect x (.event (.call w line capacity)) (x.call w line capacity).2 := by
  have hcall : (x.call w line capacity).2 = (x.attempt w line capacity).2 := by
    unfold call
    split <;> next h => rw [h]
  rw [hcall]
  unfold attempt
  cases hparse : Command.parse line with
  | error fault => exact .quiet ⟨rfl, rfl⟩
  | ok command =>
    cases command with
    | run mode protocol payload =>
      cases mode with
      | inline => exact callEffect_runInline w protocol payload capacity _ x
      | background => exact callEffect_runBackground protocol payload _ x
      | kept => exact callEffect_runKept hsound hparse
    | take id => exact .fetched (ResultStore.fetched_take x.store id capacity) rfl
    | takeChunk id => exact .fetched (ResultStore.fetched_takeChunk x.store id capacity) rfl
    | system command => exact .quiet (quiet_runSystem w command capacity x)

end Calls

theorem CallEffect.joined {o : Occurrence} (h : CallEffect x o y) :
    ∃ posted, x.pool.Joined y.pool posted := by
  have hsame (hpool : y.pool = x.pool) : ∃ posted, x.pool.Joined y.pool posted := by
    rw [hpool]
    exact ⟨[], Pool.joined_refl x.pool⟩
  cases h with
  | quiet hquiet => exact hsame hquiet.pool
  | stored hstore hpool => exact hsame hpool
  | fetched hfetched hpool => exact hsame hpool
  | posted hpost hstore => exact ⟨_, Pool.joined_of_post? hpost⟩
  | reserved hreserve hpost hreserves => exact ⟨_, Pool.joined_of_post? hpost⟩

/-! ## Following a task -/

/-- Where the task at a place is after an occurrence; a task that is done is nowhere. -/
def follow (o : Occurrence) (x : Exchange) (place : Place) : Option Place :=
  match o with
  | .event .start => if x.pool.start?.isSome then some (x.pool.afterStart place) else some place
  | .event (.finish _ k) =>
    if (x.pool.finish? k).isSome then Pool.afterFinish k place else some place
  | .event (.call ..) | .event (.submit ..) | .event (.enqueue _) | .event (.addEngine ..)
  | .event (.link _) | .event .close | .event .stopLink | .change _ => some place

def followAll : List Occurrence → Exchange → Place → Option Place
  | [], _, place => some place
  | o :: os, x, place => (x.follow o place).bind ((x.after o).followAll os)

theorem followAll_concat (os : List Occurrence) (o : Occurrence) (x : Exchange) (place : Place) :
    x.followAll (os ++ [o]) place =
      (x.followAll os place).bind ((x.afterAll os).follow o) := by
  induction os generalizing x place with
  | nil =>
    show (x.follow o place).bind some = x.follow o place
    exact Option.bind_fun_some _
  | cons first os ih =>
    show (x.follow first place).bind ((x.after first).followAll (os ++ [o])) =
      ((x.follow first place).bind ((x.after first).followAll os)).bind
        (((x.after first).afterAll os).follow o)
    rw [Option.bind_assoc]
    congr 1
    funext next
    exact ih (x.after first) next

/-- A task is followed until a worker is done with it. -/
theorem follow_eq_none {o : Occurrence} (h : x.follow o place = none) :
    ∃ w k, o = .event (.finish w k) ∧ place = .running k := by
  unfold follow at h
  split at h
  · split at h <;> cases h
  · next w k =>
    split at h
    · cases place with
      | queued i => cases h
      | running j =>
        simp only [Pool.afterFinish] at h
        split at h
        · next heq => exact ⟨w, k, rfl, heq ▸ rfl⟩
        · cases h
    · cases h
  all_goals cases h

/-- Apart from how its handler answers, a task is the same. -/
structure SameTask (task task' : Task) : Prop where
  protocol_eq : task'.protocol = task.protocol
  request_eq : task'.request = task.request
  slot_eq : task'.slot = task.slot

theorem at?_changed (change : EngineChange) (hat : x.pool.at? place = some task) :
    (x.changed change).pool.at? place = some (task.changed change) := by
  cases place with
  | queued i =>
    show (x.pool.queue.map (Task.changed change))[i]? = _
    rw [List.getElem?_map, show x.pool.queue[i]? = some task from hat]
    rfl
  | running k =>
    show (x.pool.running.map (Task.changed change))[k]? = _
    rw [List.getElem?_map, show x.pool.running[k]? = some task from hat]
    rfl

/-! ## Occurrences, taken apart -/

/-- What an occurrence does to results and tasks. -/
inductive Happens (x : Exchange) : Occurrence → Exchange → Prop where
  | called {w : Surroundings} {line : String} {capacity : Nat} {y : Exchange}
      (hcall : CallEffect x (.event (.call w line capacity)) y) :
      Happens x (.event (.call w line capacity)) y
  | started {task : Task} {pool : Pool Task} (hstart : x.pool.start? = some (task, pool)) :
      Happens x (.event .start) { x with pool }
  | finished {w : Surroundings} {k : Nat} {task : Task} {pool : Pool Task} {y : Exchange}
      (hfinish : x.pool.finish? k = some (task, pool)) (hpool : y.pool = pool)
      (hstore : y.store = match task.slot with
        | none => x.store
        | some id =>
          x.store.complete id (keptText (task.handler.execute w task.request x.link).1)) :
      Happens x (.event (.finish w k)) y
  | submitted (id : RequestId) (text : String) :
      Happens x (.event (.submit id text)) (x.submit id text)
  | closed : Happens x (.event .close) x.close
  | changed (change : EngineChange) : Happens x (.change change) (x.changed change)
  /-- Results and tasks are left alone; in particular no worker starts or is done. -/
  | quiet {o : Occurrence} {y : Exchange} (hquiet : Quiet x y)
      (hstays : ∀ place, x.follow o place = some place)
      (hnobody : ∀ w k, o = .event (.finish w k) → x.pool.running[k]? = none) : Happens x o y

theorem happens_finish (w : Surroundings) (k : Nat) (x : Exchange) :
    Happens x (.event (.finish w k)) (x.after (.event (.finish w k))) := by
  show Happens x _ ((x.finishTask? w k).getD x)
  cases hfinish : x.pool.finish? k with
  | none =>
    rw [finishTask?, hfinish]
    refine .quiet ⟨rfl, rfl⟩ (fun place => by rw [follow, hfinish]; rfl) fun w' k' heq => ?_
    cases heq
    exact Option.map_eq_none_iff.1 hfinish
  | some r =>
    obtain ⟨task, pool⟩ := r
    rw [finishTask?, hfinish, Option.map_some, Option.getD_some]
    refine .finished hfinish (perform_pool w task _) ?_
    unfold perform
    cases task.slot <;> rfl

/-- **What an occurrence does**, and nothing else is possible. -/
theorem happens_after (hsound : x.store.Sound range) (o : Occurrence) :
    Happens x o (x.after o) := by
  cases o with
  | change change => exact .changed change
  | event event =>
    cases event with
    | call w line capacity => exact .called (callEffect_call hsound)
    | start =>
      show Happens x _ (x.startTask?.getD x)
      cases hstart : x.pool.start? with
      | none =>
        rw [startTask?, hstart]
        exact .quiet ⟨rfl, rfl⟩ (fun place => by rw [follow, hstart]; rfl) (by simp)
      | some r =>
        rw [startTask?, hstart]
        exact .started hstart
    | finish w k => exact happens_finish w k x
    | submit id text => exact .submitted id text
    | enqueue text => exact .quiet (quiet_enqueue text x) (fun _ => rfl) (by simp)
    | addEngine name engine database args =>
      exact .quiet (quiet_addEngine name engine database args x) (fun _ => rfl) (by simp)
    | link event => exact .quiet ⟨rfl, rfl⟩ (fun _ => rfl) (by simp)
    | close => exact .closed
    | stopLink =>
      refine .quiet ?_ (fun _ => rfl) (by simp)
      show Quiet x (if x.stopped && x.pool.isIdle then x.stopLink else x)
      split <;> exact ⟨rfl, rfl⟩

/-- **The same task is at the place that is followed.** -/
theorem at?_follow {o : Occurrence} (hhappens : Happens x o y) (hat : x.pool.at? place = some task)
    (hfollow : x.follow o place = some place') :
    ∃ task', y.pool.at? place' = some task' ∧ SameTask task task' := by
  have hsame : SameTask task task := ⟨rfl, rfl, rfl⟩
  cases hhappens with
  | called hcall =>
    cases hfollow
    obtain ⟨posted, hjoined⟩ := hcall.joined
    exact ⟨task, Pool.at?_joined hjoined hat, hsame⟩
  | started hstart =>
    rw [follow, hstart] at hfollow
    cases hfollow
    exact ⟨task, Pool.at?_start hstart hat, hsame⟩
  | finished hfinish hpool hstore =>
    rw [follow, hfinish] at hfollow
    rw [hpool]
    exact ⟨task, Pool.at?_finish hfinish hat hfollow, hsame⟩
  | submitted id text =>
    cases hfollow
    exact ⟨task, hat, hsame⟩
  | closed =>
    cases hfollow
    -- closing the pool moves nobody
    refine ⟨task, ?_, hsame⟩
    cases place <;> exact hat
  | changed change =>
    cases hfollow
    exact ⟨task.changed change, at?_changed change hat, rfl, rfl, rfl⟩
  | quiet hquiet hstays hnobody =>
    rw [hstays] at hfollow
    cases hfollow
    rw [hquiet.pool]
    exact ⟨task, hat, hsame⟩

end Exchange

end Switchboard
