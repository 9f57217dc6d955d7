import Switchboard.Proofs.Exchange.Reservations

/-!
# Shutting down leaves nothing pending

An exchange is shut down by closing its pool, waiting for the workers, and giving up the link. That
the workers come to an end, and that they come to it with nothing left, is shown on the steps they
take (`exists_afterAll_workOff`, `isIdle_workOff`). What holds then holds for good: a closed pool
stays closed (`isOpen_after`), and an idle one gets no more tasks (`Retired.after`). With no task
anywhere no entry can be awaited, so none is pending; and a call that needs a worker is refused and
leaves everything as it was (`call_of_closed`).
-/

namespace Switchboard

/-- Whether the workers or the link act by themselves. -/
def ExchangeEvent.isInner : ExchangeEvent → Bool
  | start | finish _ _ | link _ => true
  | _ => false

namespace Exchange

variable {x y : Exchange} {o : Occurrence} {range : Interval} {id : RequestId}
  {w : Surroundings} {held : Task → Bool}

/-! ## Workers at work -/

/-- A step of the workers is an event, and it leaves aside whether the exchange was stopped. -/
theorem step_of_workStep? (h : x.workStep? w held = some y) :
    ∃ event : ExchangeEvent, event.isInner = true ∧ (x.step event).2 = y ∧
      y.stopped = x.stopped := by
  rcases Option.or_eq_some_iff.1 h with h | ⟨-, h⟩
  · obtain ⟨k, -, hfinish⟩ := Option.bind_eq_some_iff.1 h
    refine ⟨.finish w k, rfl, ?_, ?_⟩
    · show (x.finishTask? w k).getD x = y
      rw [hfinish, Option.getD_some]
    · obtain ⟨r, -, rfl⟩ := Option.map_eq_some_iff.1 hfinish
      unfold perform
      cases r.1.slot <;> rfl
  · refine ⟨.start, rfl, ?_, ?_⟩
    · show x.startTask?.getD x = y
      rw [h, Option.getD_some]
    · obtain ⟨r, -, rfl⟩ := Option.map_eq_some_iff.1 h
      rfl

/-- What the workers do is a run. -/
theorem exists_run_work (w : Surroundings) (held : Task → Bool) (x : Exchange) :
    ∃ events : List ExchangeEvent, (∀ event ∈ events, event.isInner = true) ∧
      (x.run events).2 = x.work w held ∧ (x.work w held).stopped = x.stopped := by
  induction x using work.induct w held with
  | case1 x y hstep ih =>
    -- the first step, and then the run of the others
    obtain ⟨events, hinner, hrun, hstopped⟩ := ih
    obtain ⟨event, hevent, hafter, hkept⟩ := step_of_workStep? hstep
    rw [work, hstep]
    refine ⟨event :: events, List.forall_mem_cons.2 ⟨hevent, hinner⟩, ?_, hstopped.trans hkept⟩
    show ((x.step event).2.run events).2 = _
    rw [hafter, hrun]
  | case2 x hstep =>
    rw [work, hstep]
    exact ⟨[], nofun, rfl, rfl⟩

theorem afterAll_map_event (events : List ExchangeEvent) (x : Exchange) :
    x.afterAll (events.map .event) = (x.run events).2 := by
  induction events generalizing x with
  | nil => rfl
  | cons event events ih => exact ih (x.step event).2

theorem exists_afterAll_work (w : Surroundings) (held : Task → Bool) (x : Exchange) :
    ∃ os, x.afterAll os = x.work w held ∧ (x.work w held).stopped = x.stopped := by
  obtain ⟨events, -, hrun, hstopped⟩ := exists_run_work w held x
  exact ⟨events.map .event, (afterAll_map_event events x).trans hrun, hstopped⟩

theorem isIdle_of_workStep?_eq_none (h : x.workStep? w (fun _ => false) = none) :
    x.pool.isIdle = true := by
  obtain ⟨hfinish, hstart⟩ := Option.or_eq_none_iff.1 h
  have hrunning : x.pool.running = [] := by
    cases hr : x.pool.running with
    | nil => rfl
    | cons task rest =>
      -- nothing holds up the first task, so a worker would be done with it
      have hfirst : x.pool.running.findIdx? (fun _ => !false) = some 0 := by
        rw [hr]
        rfl
      rw [hfirst, Option.bind_some, finishTask?, Pool.finish?, hr] at hfinish
      cases hfinish
  have hqueue : x.pool.queue = [] := by
    cases hq : x.pool.queue with
    | nil => rfl
    | cons task rest =>
      have hfree : x.pool.running.length < x.pool.size := by
        rw [hrunning]
        exact x.pool.size_pos
      simp [startTask?, Pool.start?, hq, hfree] at hstart
  simp [Pool.isIdle, Pool.pending, hqueue, hrunning]

/-- **The workers finish everything**, when nothing holds them up. -/
theorem isIdle_workOff (w : Surroundings) (x : Exchange) : (x.workOff w).pool.isIdle = true := by
  unfold workOff
  induction x using work.induct w (fun _ => false) with
  | case1 x y hstep ih =>
    rw [work, hstep]
    exact ih
  | case2 x hstep =>
    rw [work, hstep]
    exact isIdle_of_workStep?_eq_none hstep

/-! ## Closed and idle -/

/-- The pool takes no more tasks, and those it took are done. -/
structure Retired (x : Exchange) : Prop where
  closed : x.pool.isOpen = false
  idle : x.pool.isIdle = true

theorem isOpen_of_happens (hhappens : Happens x o y) (h : x.pool.isOpen = false) :
    y.pool.isOpen = false := by
  cases hhappens with
  | called hcall =>
    obtain ⟨posted, hjoined⟩ := hcall.joined
    exact hjoined.closed_eq h ▸ h
  | started hstart => exact (Pool.isOpen_of_start? hstart).trans h
  | finished hfinish hpool hstore =>
    rw [hpool]
    exact (Pool.isOpen_of_finish? hfinish).trans h
  | submitted id text => exact h
  | closed => rfl
  | changed change => exact h
  | quiet hquiet hstays hnobody => exact hquiet.pool ▸ h

/-- Nobody gives a closed pool a new task, so one that is idle stays so. -/
theorem Retired.of_happens (h : Retired x) (hhappens : Happens x o y) : Retired y := by
  refine ⟨isOpen_of_happens hhappens h.closed, ?_⟩
  obtain ⟨hqueue, hrunning⟩ := Pool.isIdle_iff.1 h.idle
  cases hhappens with
  | called hcall =>
    obtain ⟨posted, hjoined⟩ := hcall.joined
    exact hjoined.closed_eq h.closed ▸ h.idle
  -- with an empty queue no worker starts, and with none running no worker is done
  | started hstart => simp [Pool.start?, hqueue] at hstart
  | finished hfinish hpool hstore => simp [Pool.finish?, hrunning] at hfinish
  | submitted id text => exact h.idle
  | closed => exact h.idle
  | changed change =>
    refine Pool.isIdle_iff.2 ⟨?_, ?_⟩
    · show x.pool.queue.map (Task.changed change) = []
      rw [hqueue, List.map_nil]
    · show x.pool.running.map (Task.changed change) = []
      rw [hrunning, List.map_nil]
  | quiet hquiet hstays hnobody => exact hquiet.pool ▸ h.idle

theorem isOpen_afterAll (hsound : x.store.Sound range) (h : x.pool.isOpen = false)
    (os : List Occurrence) : (x.afterAll os).pool.isOpen = false := by
  induction os generalizing x with
  | nil => exact h
  | cons o os ih => exact ih (sound_after hsound o) (isOpen_of_happens (happens_after hsound o) h)

theorem Retired.afterAll (h : Retired x) (hsound : x.store.Sound range) (os : List Occurrence) :
    Retired (x.afterAll os) := by
  induction os generalizing x with
  | nil => exact h
  | cons o os ih => exact ih (h.of_happens (happens_after hsound o)) (sound_after hsound o)

/-- **Shutting down is a run that ends closed and idle.** -/
theorem retired_shutdown (hsound : x.store.Sound range) (hrunning : x.stopped = false)
    (w : Surroundings) : Retired (x.shutdown w) ∧ ∃ os, x.afterAll os = x.shutdown w := by
  have hshutdown : x.shutdown w = (x.close.workOff w).stopLink := by
    rw [shutdown, hrunning]
    rfl
  obtain ⟨os, hos, hstopped⟩ := exists_afterAll_work w (fun _ => false) x.close
  have hidle : (x.close.workOff w).pool.isIdle = true := isIdle_workOff w x.close
  have hclosed : (x.close.workOff w).pool.isOpen = false := by
    rw [workOff, ← hos]
    exact isOpen_afterAll (x := x.close) hsound rfl os
  rw [hshutdown]
  refine ⟨⟨hclosed, hidle⟩, .event .close :: os ++ [.event .stopLink], ?_⟩
  -- the link is given up only when the exchange was stopped and the workers are done
  rw [afterAll_concat, show x.afterAll (.event .close :: os) = x.close.workOff w from hos]
  show (if (x.close.workOff w).stopped && (x.close.workOff w).pool.isIdle then
    (x.close.workOff w).stopLink else x.close.workOff w) = _
  rw [hidle, workOff, hstopped]
  rfl

/-! ## After the shutdown -/

/-- With no task anywhere no entry is awaited, so none is pending. -/
theorem not_pending_of_isIdle (hsound : x.store.Sound range) (hempty : x.store.entries = ∅)
    {os : List Occurrence} (hidle : (x.afterAll os).pool.isIdle = true) (id : RequestId) :
    (x.afterAll os).store.entries[id]? ≠ some .pending := by
  intro hpending
  obtain ⟨before, o, since, place, task, rfl, hawaits⟩ := exists_awaits hsound hempty os hpending
  have hthere := hawaits.there
  rw [← afterAll_append_cons, Pool.at?_of_isIdle hidle] at hthere
  cases hthere

/-- **A call that needs a worker is refused by a closed pool**, and leaves everything as it was. -/
theorem call_of_closed {line protocol payload : String} {capacity : Nat} {mode : Mode}
    {handler : Handler} (hsound : x.store.Sound range) (hclosed : x.pool.isOpen = false)
    (hparse : Command.parse line = .ok (.run mode protocol payload)) (hmode : mode ≠ .inline)
    (hhandler : x.registry[protocol]? = some handler) :
    ∃ fault : CallFault, (fault = .poolClosed ∨ mode = .kept ∧ fault = .idSpaceExhausted) ∧
      x.call w line capacity = (.reply (Token.error (Fault.call fault).hostMessage).render, x) := by
  have hcall {fault : CallFault}
      (hrun : x.execute w (.run mode protocol payload) capacity = (.error (.call fault), x)) :
      x.call w line capacity = (.reply (Token.error (Fault.call fault).hostMessage).render, x) := by
    simp only [call, attempt, hparse, hrun]
  cases mode with
  | inline => exact absurd rfl hmode
  | background =>
    have hpost : x.pool.post? ⟨protocol, handler, payload, none⟩ = none :=
      Pool.post?_eq_none_iff.2 hclosed
    refine ⟨.poolClosed, Or.inl rfl, hcall ?_⟩
    simp only [execute, runBackground, handlerOf, hhandler, hpost]
  | kept =>
    have hkept := kept_runKept hsound protocol payload
    have hexecute : x.execute w (.run .kept protocol payload) capacity =
        x.runKept protocol payload := rfl
    rw [hexecute] at hcall
    generalize x.runKept protocol payload = result at hkept hcall
    obtain ⟨reply, y⟩ := result
    dsimp only at hkept
    cases hkept with
    | unknown hnone =>
      rw [hhandler] at hnone
      cases hnone
    | exhausted => exact ⟨.idSpaceExhausted, Or.inr ⟨rfl, rfl⟩, hcall rfl⟩
    | closed _ => exact ⟨.poolClosed, Or.inl rfl, hcall rfl⟩
    | accepted _ hreserve hpost =>
      rw [Pool.post?_eq_none_iff.2 hclosed] at hpost
      cases hpost

/-- Nothing is pending, and a call that needs a worker is refused and changes nothing. -/
structure Drained (x : Exchange) : Prop where
  none_pending : ∀ id : RequestId, x.store.entries[id]? ≠ some .pending
  refuses : ∀ (w : Surroundings) (line : String) (capacity : Nat) (mode : Mode)
    (protocol payload : String) (handler : Handler),
    Command.parse line = .ok (.run mode protocol payload) → mode ≠ .inline →
    x.registry[protocol]? = some handler →
    ∃ fault : CallFault, (fault = .poolClosed ∨ mode = .kept ∧ fault = .idSpaceExhausted) ∧
      x.call w line capacity = (.reply (Token.error (Fault.call fault).hostMessage).render, x)

theorem Retired.drained (hsound : x.store.Sound range) (hempty : x.store.entries = ∅)
    {os : List Occurrence} (h : Retired (x.afterAll os)) : Drained (x.afterAll os) where
  none_pending := not_pending_of_isIdle hsound hempty h.idle
  refuses _ _ _ _ _ _ _ hparse hmode hhandler :=
    call_of_closed (sound_afterAll hsound os) h.closed hparse hmode hhandler

/-! ## The theorem -/

/-- **No reservation is orphaned, and shutting down leaves none.** Take an exchange that was just
opened, and anything that can happen to it: host calls, workers, submissions, and engines that break
off or change how they answer. Each pending entry was reserved by a call of the run, and has been
pending since; the task that this call posted is still queued or running, and when a worker is done
with it the entry has the text for its outcome, also for a panic. Workers that go on finish every
pending entry. Once the exchange was shut down, or its pool was closed and has become idle with
other things happening meanwhile, nothing is pending, whatever happens then, and calls that need a
worker are refused with an error and leave the exchange as it was, entries and intervals
included. -/
theorem no_reservation_orphaned {s : Settings} {processors : Nat} {draw : UInt64}
    (hlaunch : launch s processors draw = .ok x) (os : List Occurrence) :
    (∀ id : RequestId, (x.afterAll os).store.entries[id]? = some .pending →
      ∃ before o since place task, os = before ++ o :: since ∧
        Awaits (x.afterAll before) o since id place task ∧
        ∀ w k, place = .running k →
          ((x.afterAll os).after (.event (.finish w k))).store.entries[id]? =
            some (.ready (keptText (task.handler.execute w task.request (x.afterAll os).link).1))) ∧
    (∀ w, ∀ id : RequestId, ((x.afterAll os).workOff w).store.entries[id]? ≠ some .pending) ∧
    ((x.afterAll os).stopped = false →
      ∀ w later, Drained (((x.afterAll os).shutdown w).afterAll later)) ∧
    (Retired (x.afterAll os) → ∀ later, Drained ((x.afterAll os).afterAll later)) := by
  obtain ⟨range, hstart, hempty⟩ := consistent_launch hlaunch
  have hsound : x.store.Sound range := hstart.sound
  have hretired {os : List Occurrence} (h : Retired (x.afterAll os)) (later : List Occurrence) :
      Drained ((x.afterAll os).afterAll later) := by
    have hlater := h.afterAll (sound_afterAll hsound os) later
    rw [← afterAll_append] at hlater ⊢
    exact hlater.drained hsound hempty
  refine ⟨fun id hpending => ?_, fun w id => ?_, fun hrunning w later => ?_, hretired⟩
  · obtain ⟨before, o, since, place, task, rfl, hawaits⟩ := exists_awaits hsound hempty os hpending
    refine ⟨before, o, since, place, task, rfl, hawaits, fun w k hplace => ?_⟩
    subst hplace
    rw [afterAll_append_cons]
    exact hawaits.completes w
  · obtain ⟨os', hos', -⟩ := exists_afterAll_work w (fun _ => false) (x.afterAll os)
    have hidle : (x.afterAll (os ++ os')).pool.isIdle = true := by
      rw [afterAll_append, hos']
      exact isIdle_workOff w (x.afterAll os)
    have hnone := not_pending_of_isIdle hsound hempty hidle id
    rw [afterAll_append, hos'] at hnone
    exact hnone
  · obtain ⟨hshut, os', hos'⟩ := retired_shutdown (sound_afterAll hsound os) hrunning w
    have hend : x.afterAll (os ++ os') = (x.afterAll os).shutdown w := by
      rw [afterAll_append, hos']
    rw [← hend] at hshut ⊢
    exact hretired hshut later

/-- An engine that breaks off, and a call that has a worker run it and keep the output. -/
def breakingCall : List Occurrence :=
  [.event (.addEngine "p" ⟨fun _ _ => some fun _ => .panic⟩ none ""),
    .event (.call echoSurroundings "2:p:hello" 9), .event .start]

/-- The id of the call is pending while the worker is at it, and ready when the engine has broken
off. -/
theorem no_reservation_orphaned_after_panic :
    launch { testMode := true } 1 0 = .ok echoStart ∧
    (echoStart.afterAll breakingCall).store.entries[(1 : RequestId)]? = some .pending ∧
    (∃ before o since place task, breakingCall = before ++ o :: since ∧
      Awaits (echoStart.afterAll before) o since 1 place task) ∧
    (echoStart.afterAll (breakingCall ++ [.event (.finish echoSurroundings 0)])).store.entries[
      (1 : RequestId)]? = some (.ready "[0,\"Protocol panicked\"]") ∧
    (echoStart.afterAll breakingCall).stopped = false ∧
    ∀ later,
      Drained (((echoStart.afterAll breakingCall).shutdown echoSurroundings).afterAll later) := by
  have hlaunch : launch { testMode := true } 1 0 = .ok echoStart := rfl
  have hpending : (echoStart.afterAll breakingCall).store.entries[(1 : RequestId)]? =
      some .pending := by
    decide +kernel
  obtain ⟨hawaited, -, hshut, -⟩ := no_reservation_orphaned hlaunch breakingCall
  obtain ⟨before, o, since, place, task, hsplit, hawaits, -⟩ := hawaited 1 hpending
  refine ⟨hlaunch, hpending, ⟨before, o, since, place, task, hsplit, hawaits⟩, ?_, rfl, ?_⟩
  · decide +kernel
  · exact hshut rfl echoSurroundings

end Exchange

end Switchboard
