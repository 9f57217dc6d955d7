import Switchboard.Exchange.Run
import Switchboard.Proofs.Results.Store
import Switchboard.Proofs.Token
import Switchboard.Proofs.Workers.Pool

/-!
# What a step of an exchange does

Host calls, workers and setup act on an exchange one event at a time. This module says once what an
event does to the stored results and to the accepted tasks, so that no invariant has to open the
calls again:

* **`Effect`**: the four things an event other than a submission can be. It leaves results and
  promises alone, it issues an id (for an output that is there, or for a task that promises it), it
  collects, or it keeps the output of a task. `effect_step` shows that there is no other.
* **`Defers`**: a call is answered with the id under which its output is to be collected. Such an id
  has no entry yet (`Defers.fresh`).
* **`execute_inline_large`**, **`execute_kept`**: the two commands that issue an id. A kept call
  that fails half way leaves nothing behind (`kept_runKept`).
-/

namespace Switchboard

/-! ## Promises -/

/-- An id that a task is to complete, with the handler and what it is asked. -/
structure Promise where
  id : RequestId
  handler : Handler
  request : String

/-- The promise of a task, if its output is to be kept. -/
def Task.promise? (task : Task) : Option Promise :=
  task.slot.map fun id => ⟨id, task.handler, task.request⟩

namespace Exchange

variable {x y : Exchange} {event : ExchangeEvent} {range : Interval}

/-- The promises of the accepted tasks. -/
def promises (x : Exchange) : List Promise :=
  x.pool.tasks.filterMap Task.promise?

/-! ## What an event shows -/

/-- The id that an event collects from, with what the store hands out. -/
def fetchOf? (x : Exchange) : ExchangeEvent → Option (RequestId × Fetch)
  | .call _ line capacity =>
    match Command.parse line with
    | .ok (.take id) => some (id, (x.store.take id capacity).1)
    | .ok (.takeChunk id) => some (id, (x.store.takeChunk id capacity).1)
    | _ => none
  | _ => none

/-- The reply of an event, if with it the host collects from an id; otherwise nothing. -/
def pieceOf (id : RequestId) (x : Exchange) (event : ExchangeEvent) : String :=
  match x.fetchOf? event, (x.step event).1 with
  | some (id', .data _), some (.reply text) => if id' = id then text else ""
  | _, _ => ""

/-- The execution of a handler that an event is, with what is asked and how it ends. Background
tasks and kept ones are executed when a worker is done with them. -/
def executionOf? (x : Exchange) : ExchangeEvent → Option (Handler × String × Outcome)
  | .call w line _ =>
    match Command.parse line with
    | .ok (.run .inline protocol payload) =>
      x.registry[protocol]?.map fun handler =>
        (handler, payload, (handler.execute w payload x.link).1)
    | _ => none
  | .finish w place =>
    x.pool.running[place]?.map fun task =>
      (task.handler, task.request, (task.handler.execute w task.request x.link).1)
  | _ => none

/-- A host call is answered with an id to collect the output under: a handler was run at once and
its output leaves less than the overhead of a `deferred` token in the buffer, or a worker is to run
it and keep the output. -/
inductive Defers (x : Exchange) : ExchangeEvent → RequestId → Handler → String → Prop where
  | inline {w : Surroundings} {line protocol payload text : String} {capacity : Nat}
      {id : RequestId} {handler : Handler}
      (hparse : Command.parse line = .ok (.run .inline protocol payload))
      (hhandler : x.registry[protocol]? = some handler)
      (houtput : (handler.execute w payload x.link).1 = .reply text)
      (hlarge : capacity - Token.overhead < text.utf8ByteSize)
      (hreply : (x.step (.call w line capacity)).1 = some (.reply (Token.deferred id).render)) :
      Defers x (.call w line capacity) id handler payload
  | kept {w : Surroundings} {line protocol payload : String} {capacity : Nat}
      {id : RequestId} {handler : Handler}
      (hparse : Command.parse line = .ok (.run .kept protocol payload))
      (hhandler : x.registry[protocol]? = some handler)
      (hreply : (x.step (.call w line capacity)).1 = some (.reply (Token.deferred id).render)) :
      Defers x (.call w line capacity) id handler payload

/-! ## Events that leave results and tasks alone -/

/-- Neither the stored results nor the tasks differ. -/
structure Quiet (x y : Exchange) : Prop where
  store : y.store = x.store
  pool : y.pool = x.pool

theorem setupResult_snd {α β : Type} (family : α → Fault) (r : Except α β × Exchange) :
    (setupResult family r).2 = r.2 := by
  obtain ⟨result, x⟩ := r
  cases result <;> rfl

theorem quiet_startLink (w : Surroundings) (config : String) (x : Exchange) :
    Quiet x (x.startLink w config).2 := by
  unfold startLink
  split
  · exact ⟨rfl, rfl⟩
  · split
    · exact ⟨rfl, rfl⟩
    · split
      · exact ⟨rfl, rfl⟩
      · split <;> exact ⟨rfl, rfl⟩

theorem quiet_connectDatabase (config id : String) (x : Exchange) :
    Quiet x (x.connectDatabase config id).2 := by
  unfold connectDatabase
  split <;> exact ⟨rfl, rfl⟩

theorem quiet_addHandler (name kind : String) (database : Option String) (args : String)
    (x : Exchange) : Quiet x (x.addHandler name kind database args).2 := by
  unfold addHandler
  split
  · exact ⟨rfl, rfl⟩
  · split
    · exact ⟨rfl, rfl⟩
    · split <;> exact ⟨rfl, rfl⟩

theorem quiet_addEngine (name : String) (engine : Engine) (database : Option String)
    (args : String) (x : Exchange) : Quiet x (x.addEngine name engine database args).2 := by
  unfold addEngine
  split <;> exact ⟨rfl, rfl⟩

/-- A request joins the link, if there is one. -/
theorem enqueue_snd (text : String) (x : Exchange) :
    (x.enqueue text).2 = { x with link := x.link.map (Admin.Link.enqueue text) } := by
  obtain ⟨settings, store, databases, registry, link, locked, pool, stopped⟩ := x
  cases link <;> rfl

theorem quiet_enqueue (text : String) (x : Exchange) : Quiet x (x.enqueue text).2 := by
  rw [enqueue_snd]
  exact ⟨rfl, rfl⟩

theorem quiet_runSystem (w : Surroundings) (command : SystemCommand) (capacity : Nat)
    (x : Exchange) : Quiet x (x.runSystem w command capacity).2 := by
  unfold runSystem
  split
  · exact ⟨rfl, rfl⟩
  · cases command with
    | startConsole config =>
      have h := quiet_startLink w config x
      dsimp only
      split
      · next heq =>
        rw [heq] at h
        exact h
      · rw [setupResult_snd]
        exact h
    | bindDatabase config id =>
      show Quiet x (setupResult .setup (x.connectDatabase config id)).2
      rw [setupResult_snd]
      exact quiet_connectDatabase config id x
    | addHandler database kind name initArgs =>
      show Quiet x (setupResult .setup (x.addHandler name kind database initArgs)).2
      rw [setupResult_snd]
      exact quiet_addHandler name kind database initArgs x
    | version => exact ⟨rfl, rfl⟩
    | outputSize => exact ⟨rfl, rfl⟩
    | lock => exact ⟨rfl, rfl⟩
    | lockStatus => exact ⟨rfl, rfl⟩

/-! ## Issuing an id -/

/-- Results, free ids and promises stay as they are. -/
structure Still (range : Interval) (x y : Exchange) : Prop where
  sound : y.store.Sound range
  entries_eq : ∀ id : RequestId, y.store.entries[id]? = x.store.entries[id]?
  promises_perm : y.promises.Perm x.promises

/-- An id without an entry gets one, and perhaps a task that promises it. -/
structure Issues (range : Interval) (x y : Exchange) (id : RequestId) (entry : StoredResult)
    (promised : Option Promise) : Prop where
  sound : y.store.Sound range
  fresh : id ∉ x.store.entries
  entries_eq : y.store.entries = x.store.entries.insert id entry
  promises_perm : y.promises.Perm (promised.toList ++ x.promises)
  pending : ∀ p, promised = some p → p.id = id ∧ entry = .pending

theorem Quiet.still (h : Quiet x y) (hsound : x.store.Sound range) : Still range x y := by
  refine ⟨h.store ▸ hsound, fun id => ?_, ?_⟩
  · rw [h.store]
  · rw [promises, promises, h.pool]

theorem promises_of_post? {pool : Pool Task} {task : Task} (h : x.pool.post? task = some pool)
    (hpool : y.pool = pool) : y.promises.Perm (task.promise?.toList ++ x.promises) := by
  have hperm := (Pool.tasks_of_post? h).filterMap Task.promise?
  rw [promises, hpool]
  refine hperm.trans ?_
  rw [List.filterMap_cons]
  cases task.promise? <;> exact List.Perm.refl _

/-- Running a handler whose output does not fit issues an id for the output, unless there is none
left. -/
theorem execute_inline_large {w : Surroundings} {protocol payload text : String} {capacity : Nat}
    {handler : Handler} (hsound : x.store.Sound range)
    (hhandler : x.registry[protocol]? = some handler)
    (houtput : (handler.execute w payload x.link).1 = .reply text)
    (hlarge : capacity - Token.overhead < text.utf8ByteSize) :
    (∃ fault y, x.execute w (.run .inline protocol payload) capacity = (.error fault, y) ∧
        Still range x y) ∨
      ∃ id y, x.execute w (.run .inline protocol payload) capacity =
          (.ok (.reply (Token.deferred id).render), y) ∧
        Issues range x y id (.ready text) none := by
  obtain ⟨link, hexec⟩ : ∃ link, handler.execute w payload x.link = (.reply text, link) :=
    ⟨_, Prod.ext houtput rfl⟩
  have hsize : ¬ text.utf8ByteSize ≤ capacity - Token.overhead := Nat.not_le.2 hlarge
  have hperform := ResultStore.sound_perform hsound (.storeReady text)
  simp only [execute, runInline, dispatch, hhandler, hexec, hsize, ↓reduceIte]
  rw [StoreOperation.perform] at hperform
  cases hstore : x.store.storeReady text with
  | mk result store =>
    rw [hstore] at hperform
    cases result with
    | error fault =>
      have hsame := ResultStore.storeReady_error hstore
      exact Or.inl ⟨_, _, rfl, Quiet.still ⟨hsame, rfl⟩ hsound⟩
    | ok id =>
      obtain ⟨hfresh, hentries⟩ := ResultStore.storeReady_ok hsound hstore
      exact Or.inr ⟨id, _, rfl, hperform, hfresh, hentries, List.Perm.refl _,
        fun p hp => absurd hp.symm (Option.some_ne_none p)⟩

/-- What a kept call does. When it is refused, nothing is left of it. -/
inductive KeptCall (x : Exchange) (protocol payload : String) :
    Except Fault Outcome → Exchange → Prop where
  | unknown (hnone : x.registry[protocol]? = none) :
      KeptCall x protocol payload (.error (.call (.unknownProtocol protocol))) x
  | exhausted : KeptCall x protocol payload (.error (.call .idSpaceExhausted)) x
  | closed (hclosed : x.pool.isOpen = false) :
      KeptCall x protocol payload (.error (.call .poolClosed)) x
  | accepted {handler : Handler} {id : RequestId} {store : ResultStore} {pool : Pool Task}
      (hhandler : x.registry[protocol]? = some handler)
      (hreserve : x.store.reserve = (.ok id, store))
      (hpost : x.pool.post? ⟨protocol, handler, payload, some id⟩ = some pool) :
      KeptCall x protocol payload (.ok (.reply (Token.deferred id).render)) { x with store, pool }

theorem kept_runKept (hsound : x.store.Sound range) (protocol payload : String) :
    KeptCall x protocol payload (x.runKept protocol payload).1 (x.runKept protocol payload).2 := by
  unfold runKept handlerOf
  cases hhandler : x.registry[protocol]? with
  | none => exact .unknown hhandler
  | some handler =>
    dsimp only
    cases hreserve : x.store.reserve with
    | mk result store =>
      cases result with
      | error fault =>
        obtain ⟨rfl, rfl⟩ := ResultStore.reserve_error hreserve
        exact .exhausted
      | ok id =>
        dsimp only
        cases hpost : x.pool.post? ⟨protocol, handler, payload, some id⟩ with
        | none =>
          have hcancel : store.cancel id = x.store := ResultStore.cancel_reserve hsound hreserve
          dsimp only
          rw [hcancel]
          exact .closed (Pool.post?_eq_none_iff.1 hpost)
        | some pool => exact .accepted hhandler hreserve hpost

/-- Having a worker run a handler and keep the output issues an id and posts a task that promises
it, unless there is no id left or the pool is closed. -/
theorem execute_kept {w : Surroundings} {protocol payload : String} {capacity : Nat}
    {handler : Handler} (hsound : x.store.Sound range)
    (hhandler : x.registry[protocol]? = some handler) :
    (∃ fault y, x.execute w (.run .kept protocol payload) capacity = (.error fault, y) ∧
        Still range x y) ∨
      ∃ id y, x.execute w (.run .kept protocol payload) capacity =
          (.ok (.reply (Token.deferred id).render), y) ∧
        Issues range x y id .pending (some ⟨id, handler, payload⟩) := by
  have hkept := kept_runKept hsound protocol payload
  have hsame : Still range x x := Quiet.still ⟨rfl, rfl⟩ hsound
  rw [show x.execute w (.run .kept protocol payload) capacity = x.runKept protocol payload from rfl]
  generalize x.runKept protocol payload = result at hkept ⊢
  obtain ⟨reply, y⟩ := result
  dsimp only at hkept
  cases hkept with
  | unknown hnone => exact Or.inl ⟨_, x, rfl, hsame⟩
  | exhausted => exact Or.inl ⟨_, x, rfl, hsame⟩
  | closed hclosed => exact Or.inl ⟨_, x, rfl, hsame⟩
  | @accepted handler' id store pool hhandler' hreserve hpost =>
    obtain rfl : handler' = handler := Option.some.inj (hhandler'.symm.trans hhandler)
    have hreserved := ResultStore.sound_perform hsound .reserve
    rw [StoreOperation.perform, hreserve] at hreserved
    obtain ⟨hfresh, hentries⟩ := ResultStore.reserve_ok hsound hreserve
    refine Or.inr ⟨id, _, rfl, hreserved, hfresh, hentries, promises_of_post? hpost rfl, ?_⟩
    intro p hp
    cases hp
    exact ⟨rfl, rfl⟩

/-! ## What a call is answered -/

section Calls

variable {w : Surroundings} {line : String} {capacity : Nat} {command : Command}

theorem step_of_ok {outcome : Outcome} (hparse : Command.parse line = .ok command)
    (h : x.execute w command capacity = (.ok outcome, y)) :
    x.step (.call w line capacity) = (some outcome, y) := by
  simp only [step, call, attempt, hparse, h]

theorem step_of_error {fault : Fault} (hparse : Command.parse line = .ok command)
    (h : x.execute w command capacity = (.error fault, y)) :
    x.step (.call w line capacity) =
      (some (.reply (Token.error fault.hostMessage).render), y) := by
  simp only [step, call, attempt, hparse, h]

theorem step_snd (hparse : Command.parse line = .ok command) :
    (x.step (.call w line capacity)).2 = (x.execute w command capacity).2 := by
  cases hexec : x.execute w command capacity with
  | mk result y =>
    cases result with
    | ok outcome => rw [step_of_ok hparse hexec]
    | error fault => rw [step_of_error hparse hexec]

end Calls

/-! ## The effect of an event -/

/-- What an event does to results, free ids and promises. -/
inductive Effect (range : Interval) (x : Exchange) (event : ExchangeEvent) (y : Exchange) :
    Prop where
  | still (hstill : Still range x y) (hfetch : x.fetchOf? event = none)
  | issued {id : RequestId} {handler : Handler} {payload : String} {entry : StoredResult}
      {promised : Option Promise} (hdefers : Defers x event id handler payload)
      (hissues : Issues range x y id entry promised) (hfetch : x.fetchOf? event = none)
  | collected {id : RequestId} {fetch : Fetch} (hfetch : x.fetchOf? event = some (id, fetch))
      (hreply : (x.step event).1 = some (.reply (fetchText fetch)))
      (hfetched : x.store.Fetched id fetch y.store) (hsound : y.store.Sound range)
      (hpool : y.pool = x.pool)
  | finished {id : RequestId} {handler : Handler} {request : String} {outcome : Outcome}
      (hexec : x.executionOf? event = some (handler, request, outcome))
      (hstore : y.store = x.store.complete id (keptText outcome)) (hsound : y.store.Sound range)
      (hpromises : x.promises.Perm (⟨id, handler, request⟩ :: y.promises))
      (hfetch : x.fetchOf? event = none)

section Calls

variable {w : Surroundings} {line : String} {capacity : Nat}

theorem effect_inline {protocol payload : String} (hsound : x.store.Sound range)
    (hparse : Command.parse line = .ok (.run .inline protocol payload)) :
    Effect range x (.call w line capacity) (x.step (.call w line capacity)).2 := by
  have hfetch : x.fetchOf? (.call w line capacity) = none := by
    simp only [fetchOf?, hparse]
  -- without a handler, on a panic, and with an output that fits, nothing is stored
  have hquiet {y : Exchange} (h : Quiet x y)
      (hrun : (x.runInline w protocol payload capacity).2 = y) :
      Effect range x (.call w line capacity) (x.step (.call w line capacity)).2 := by
    rw [step_snd hparse]
    exact .still (hrun ▸ h.still hsound) hfetch
  cases hhandler : x.registry[protocol]? with
  | none => exact hquiet ⟨rfl, rfl⟩ (by simp only [runInline, dispatch, hhandler])
  | some handler =>
    cases hexec : handler.execute w payload x.link with
    | mk outcome link =>
      have hlinked : Quiet x { x with link } := ⟨rfl, rfl⟩
      cases outcome with
      | panic => exact hquiet hlinked (by simp only [runInline, dispatch, hhandler, hexec])
      | reply text =>
        by_cases hfits : text.utf8ByteSize ≤ capacity - Token.overhead
        · exact hquiet hlinked (by
            simp only [runInline, dispatch, hhandler, hexec, hfits, ↓reduceIte])
        · have hlarge := Nat.not_le.1 hfits
          have houtput := congrArg Prod.fst hexec
          rcases execute_inline_large hsound hhandler houtput hlarge with
            ⟨fault, y, hrun, hstill⟩ | ⟨id, y, hrun, hissues⟩
          · rw [step_of_error hparse hrun]
            exact .still hstill hfetch
          · have hstep := step_of_ok hparse hrun
            have hreply := congrArg Prod.fst hstep
            rw [hstep]
            exact .issued (.inline hparse hhandler houtput hlarge hreply) hissues hfetch

theorem effect_kept {protocol payload : String} (hsound : x.store.Sound range)
    (hparse : Command.parse line = .ok (.run .kept protocol payload)) :
    Effect range x (.call w line capacity) (x.step (.call w line capacity)).2 := by
  have hfetch : x.fetchOf? (.call w line capacity) = none := by
    simp only [fetchOf?, hparse]
  cases hhandler : x.registry[protocol]? with
  | none =>
    have hrun : (x.runKept protocol payload).2 = x := by
      simp only [runKept, handlerOf, hhandler]
    rw [step_snd hparse]
    exact .still (hrun.symm ▸ Quiet.still ⟨rfl, rfl⟩ hsound) hfetch
  | some handler =>
    rcases execute_kept hsound hhandler with ⟨fault, y, hrun, hstill⟩ | ⟨id, y, hrun, hissues⟩
    · rw [step_of_error hparse hrun]
      exact .still hstill hfetch
    · have hstep := step_of_ok hparse hrun
      have hreply := congrArg Prod.fst hstep
      rw [hstep]
      exact .issued (.kept hparse hhandler hreply) hissues hfetch

theorem still_runBackground (hsound : x.store.Sound range) (protocol payload : String) :
    Still range x (x.runBackground protocol payload).2 := by
  unfold runBackground
  split
  · exact Quiet.still ⟨rfl, rfl⟩ hsound
  · split
    · exact Quiet.still ⟨rfl, rfl⟩ hsound
    · next pool hpost =>
      -- a background task has no slot, so it promises nothing
      exact ⟨hsound, fun _ => rfl, promises_of_post? hpost rfl⟩

theorem effect_collect {command : Command} {id : RequestId} {fetch : Fetch} {store : ResultStore}
    (hparse : Command.parse line = .ok command)
    (hrun : x.execute w command capacity = (.ok (.reply (fetchText fetch)), { x with store }))
    (hfetch : x.fetchOf? (.call w line capacity) = some (id, fetch))
    (hfetched : x.store.Fetched id fetch store) (hsound : store.Sound range) :
    Effect range x (.call w line capacity) (x.step (.call w line capacity)).2 := by
  have hstep := step_of_ok hparse hrun
  have hreply := congrArg Prod.fst hstep
  rw [hstep]
  exact .collected hfetch hreply hfetched hsound rfl

/-- **The effect of a call**, one case for each command. -/
theorem effect_call (hsound : x.store.Sound range) :
    Effect range x (.call w line capacity) (x.step (.call w line capacity)).2 := by
  cases hparse : Command.parse line with
  | error fault =>
    have hstep : (x.step (.call w line capacity)).2 = x := by
      simp only [step, call, attempt, hparse]
    rw [hstep]
    exact .still (Quiet.still ⟨rfl, rfl⟩ hsound) (by simp only [fetchOf?, hparse])
  | ok command =>
    cases command with
    | run mode protocol payload =>
      cases mode with
      | inline => exact effect_inline hsound hparse
      | kept => exact effect_kept hsound hparse
      | background =>
        rw [step_snd hparse]
        exact .still (still_runBackground hsound protocol payload) (by simp only [fetchOf?, hparse])
    | take id =>
      have hfetch : x.fetchOf? (.call w line capacity) =
          some (id, (x.store.take id capacity).1) := by
        simp only [fetchOf?, hparse]
      exact effect_collect hparse rfl hfetch (ResultStore.fetched_take x.store id capacity)
        (ResultStore.sound_perform hsound (.take id capacity))
    | takeChunk id =>
      have hfetch : x.fetchOf? (.call w line capacity) =
          some (id, (x.store.takeChunk id capacity).1) := by
        simp only [fetchOf?, hparse]
      exact effect_collect hparse rfl hfetch (ResultStore.fetched_takeChunk x.store id capacity)
        (ResultStore.sound_perform hsound (.takeChunk id capacity))
    | system command =>
      rw [step_snd hparse]
      exact .still ((quiet_runSystem w command capacity x).still hsound)
        (by simp only [fetchOf?, hparse])

end Calls

/-- **A deferred call issues the id it names**, for the output that is there, or for a task. -/
theorem Defers.issues {id : RequestId} {handler : Handler} {payload : String}
    (h : Defers x event id handler payload) (hsound : x.store.Sound range) :
    (∃ text, x.executionOf? event = some (handler, payload, .reply text) ∧
        Issues range x (x.step event).2 id (.ready text) none) ∨
      Issues range x (x.step event).2 id .pending (some ⟨id, handler, payload⟩) := by
  -- in both cases a fault would have been answered with an error token, not with an id
  cases h with
  | @inline w line protocol _ text capacity _ _ hparse hhandler houtput hlarge hreply =>
    have hexec : x.executionOf? (.call w line capacity) = some (handler, payload, .reply text) := by
      simp only [executionOf?, hparse, hhandler, houtput, Option.map_some]
    rcases execute_inline_large hsound hhandler houtput hlarge with
      ⟨fault, y, hrun, -⟩ | ⟨id', y, hrun, hissues⟩
    · rw [step_of_error hparse hrun] at hreply
      exact absurd (Outcome.reply.inj (Option.some.inj hreply))
        (Token.render_error_ne_deferred _ id)
    · rw [step_of_ok hparse hrun] at hreply ⊢
      have hid := Token.render_deferred_inj (Outcome.reply.inj (Option.some.inj hreply))
      exact Or.inl ⟨text, hexec, hid ▸ hissues⟩
  | @kept w line protocol _ capacity _ _ hparse hhandler hreply =>
    rcases execute_kept hsound hhandler with ⟨fault, y, hrun, -⟩ | ⟨id', y, hrun, hissues⟩
    · rw [step_of_error hparse hrun] at hreply
      exact absurd (Outcome.reply.inj (Option.some.inj hreply))
        (Token.render_error_ne_deferred _ id)
    · rw [step_of_ok hparse hrun] at hreply ⊢
      have hid := Token.render_deferred_inj (Outcome.reply.inj (Option.some.inj hreply))
      exact Or.inr (hid ▸ hissues)

/-- An id that a call is answered with had no entry. -/
theorem Defers.fresh {id : RequestId} {handler : Handler} {payload : String}
    (h : Defers x event id handler payload) (hsound : x.store.Sound range) :
    id ∉ x.store.entries := by
  rcases h.issues hsound with ⟨_, -, hissues⟩ | hissues <;> exact hissues.fresh

/-- A worker that is done with a task keeps its output under the promised id, if there is one. -/
theorem effect_finish {w : Surroundings} {place : Nat} (hsound : x.store.Sound range) :
    Effect range x (.finish w place) (x.step (.finish w place)).2 := by
  show Effect range x (.finish w place) ((x.finishTask? w place).getD x)
  cases hfinish : x.pool.finish? place with
  | none =>
    rw [finishTask?, hfinish]
    exact .still (Quiet.still ⟨rfl, rfl⟩ hsound) rfl
  | some r =>
    obtain ⟨task, pool⟩ := r
    obtain ⟨hrunning, hperm⟩ := Pool.tasks_of_finish? hfinish
    have hpromises := hperm.filterMap Task.promise?
    rw [List.filterMap_cons] at hpromises
    rw [finishTask?, hfinish]
    cases hslot : task.slot with
    | none =>
      have hnone : task.promise? = none := by rw [Task.promise?, hslot]; rfl
      simp only [Option.map_some, Option.getD_some, perform, hslot]
      rw [hnone] at hpromises
      exact .still ⟨hsound, fun _ => rfl, hpromises.symm⟩ rfl
    | some id =>
      have hsome : task.promise? = some ⟨id, task.handler, task.request⟩ := by
        rw [Task.promise?, hslot]; rfl
      have hperform := ResultStore.sound_perform hsound
        (.complete id (keptText (task.handler.execute w task.request x.link).1))
      simp only [Option.map_some, Option.getD_some, perform, hslot]
      rw [hsome] at hpromises
      have hexec : x.executionOf? (.finish w place) = some (task.handler, task.request,
          (task.handler.execute w task.request x.link).1) := by
        simp only [executionOf?, hrunning, Option.map_some]
      exact .finished hexec rfl hperform hpromises rfl

theorem still_startTask? (hsound : x.store.Sound range) : Still range x (x.startTask?.getD x) := by
  cases hstart : x.pool.start? with
  | none =>
    rw [startTask?, hstart]
    exact Quiet.still ⟨rfl, rfl⟩ hsound
  | some r =>
    rw [startTask?, hstart]
    exact ⟨hsound, fun _ => rfl, (Pool.tasks_of_start? hstart).filterMap Task.promise?⟩

/-- **The effect of an event** other than a submission. -/
theorem effect_step (hsound : x.store.Sound range)
    (hevent : ∀ id text, event ≠ .submit id text) : Effect range x event (x.step event).2 := by
  cases event with
  | call w line capacity => exact effect_call hsound
  | start => exact .still (still_startTask? hsound) rfl
  | finish w place => exact effect_finish hsound
  | submit id text => exact absurd rfl (hevent id text)
  | enqueue text => exact .still ((quiet_enqueue text x).still hsound) rfl
  | addEngine name engine database args =>
    exact .still ((quiet_addEngine name engine database args x).still hsound) rfl
  | link event => exact .still (Quiet.still ⟨rfl, rfl⟩ hsound) rfl
  | close =>
    -- closing keeps the accepted tasks
    exact .still ⟨hsound, fun _ => rfl, List.Perm.refl _⟩ rfl
  | stopLink =>
    refine .still (Quiet.still ?_ hsound) rfl
    show Quiet x (if x.stopped && x.pool.isIdle then x.stopLink else x)
    split <;> exact ⟨rfl, rfl⟩

end Exchange

end Switchboard
