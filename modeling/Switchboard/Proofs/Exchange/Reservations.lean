import Switchboard.Proofs.Exchange.Correlation
import Switchboard.Proofs.Exchange.Whereabouts

/-!
# Every reservation has its task

A pending entry waits for a worker, and there is none to be found from the entry: a task knows its
id, but an id that was collected is issued again, and tasks of two calls can have the same. What
holds together is the entry and the task of the call that reserved it:

* **`pending_of_happens`**: an entry is pending after an occurrence only if a call has just reserved
  it, or if it was pending before and no worker was done with a task for it.
* **`Awaits`**: since a call reserved an id, its entry has been pending, and the task that the call
  posted is at a place that it was followed to. One step keeps this (`Awaits.after`), so every
  pending entry of a run is awaited (`exists_awaits`).
* **`Awaits.completes`**: when a worker is done with the task, the entry has its text, also after a
  panic.
-/

namespace Switchboard.Exchange

variable {x y : Exchange} {o : Occurrence} {range : Interval} {id : RequestId} {place : Place}
  {task : Task}

/-! ## Soundness along every run -/

theorem Effect.sound {event : ExchangeEvent} (h : Effect range x event y) :
    y.store.Sound range := by
  cases h with
  | still hstill hfetch => exact hstill.sound
  | issued hdefers hissues hfetch => exact hissues.sound
  | collected hfetch hreply hfetched hsound hpool => exact hsound
  | finished hexec hstore hsound hpromises hfetch => exact hsound

theorem sound_after (h : x.store.Sound range) (o : Occurrence) : (x.after o).store.Sound range := by
  cases o with
  | change change => exact h
  | event event =>
    by_cases hsubmit : ∃ id text, event = .submit id text
    · obtain ⟨id, text, rfl⟩ := hsubmit
      exact ResultStore.sound_perform h (.complete id text)
    · have hevent : ∀ id text, event ≠ .submit id text :=
        fun id text heq => hsubmit ⟨id, text, heq⟩
      exact (effect_step h hevent).sound

theorem sound_afterAll (h : x.store.Sound range) (os : List Occurrence) :
    (x.afterAll os).store.Sound range := by
  induction os generalizing x with
  | nil => exact h
  | cons o os ih => exact ih (sound_after h o)

/-! ## Entries that are pending -/

/-- No worker is done with a task for the id. -/
def Spares (x : Exchange) (id : RequestId) (o : Occurrence) : Prop :=
  ∀ w k task, o = .event (.finish w k) → x.pool.running[k]? = some task → task.slot ≠ some id

theorem pending_of_callEffect (h : CallEffect x o y) (hsound : x.store.Sound range)
    (hpending : y.store.entries[id]? = some .pending) :
    x.store.entries[id]? = some .pending ∨
      ∃ protocol payload, Reserves x o id protocol payload := by
  cases h with
  | quiet hquiet =>
    rw [hquiet.store] at hpending
    exact Or.inl hpending
  | @stored text id' hstore hpool =>
    rw [(ResultStore.storeReady_ok hsound hstore).2] at hpending
    by_cases heq : id' = id
    · subst heq
      rw [Std.ExtTreeMap.getElem?_insert_self] at hpending
      cases hpending
    · rw [ResultStore.getElem?_insert_of_ne heq] at hpending
      exact Or.inl hpending
  | fetched hfetched hpool => exact Or.inl (hfetched.pending_of_pending hpending)
  | posted hpost hstore =>
    rw [hstore] at hpending
    exact Or.inl hpending
  | @reserved task id' hreserve hpost hreserves =>
    by_cases heq : id' = id
    · subst heq
      exact Or.inr ⟨_, _, hreserves⟩
    · rw [(ResultStore.reserve_ok hsound hreserve).2, ResultStore.getElem?_insert_of_ne heq]
        at hpending
      exact Or.inl hpending

/-- **Entries become pending only by a reservation**, and stay so only as long as no worker is done
with a task for them. -/
theorem pending_of_happens (h : Happens x o y) (hsound : x.store.Sound range)
    (hpending : y.store.entries[id]? = some .pending) :
    x.store.entries[id]? = some .pending ∧ Spares x id o ∨
      ∃ protocol payload, Reserves x o id protocol payload := by
  cases h with
  | called hcall =>
    rcases pending_of_callEffect hcall hsound hpending with hbefore | hreserves
    · exact Or.inl ⟨hbefore, nofun⟩
    · exact Or.inr hreserves
  | started hstart => exact Or.inl ⟨hpending, nofun⟩
  | @finished w k task pool _ hfinish hpool hstore =>
    left
    -- completing an entry makes it ready, so it is another one that is pending
    have hother : x.store.entries[id]? = some .pending ∧ task.slot ≠ some id := by
      rw [hstore] at hpending
      cases hslot : task.slot with
      | none =>
        rw [hslot] at hpending
        exact ⟨hpending, nofun⟩
      | some id' =>
        rw [hslot] at hpending
        obtain ⟨hbefore, hne⟩ := ResultStore.pending_of_complete hpending
        exact ⟨hbefore, fun heq => hne (Option.some.inj heq)⟩
    refine ⟨hother.1, fun w' k' task' heq htask => ?_⟩
    cases heq
    rw [(Pool.tasks_of_finish? hfinish).1] at htask
    cases htask
    exact hother.2
  | submitted id' text => exact Or.inl ⟨(ResultStore.pending_of_complete hpending).1, nofun⟩
  | closed => exact Or.inl ⟨hpending, nofun⟩
  | changed change => exact Or.inl ⟨hpending, nofun⟩
  | quiet hquiet hstays hnobody =>
    rw [hquiet.store] at hpending
    refine Or.inl ⟨hpending, fun w k task heq htask => ?_⟩
    rw [hnobody w k heq] at htask
    cases htask

/-! ## Reservations that are awaited -/

/-- Whether an entry is pending all along, from before the first occurrence to after the last. -/
def PendingThrough (id : RequestId) (os : List Occurrence) (x : Exchange) : Prop :=
  ∀ front back, os = front ++ back → (x.afterAll front).store.entries[id]? = some .pending

theorem pendingThrough_nil (h : x.store.entries[id]? = some .pending) :
    x.PendingThrough id [] := by
  intro front back heq
  obtain ⟨rfl, -⟩ := List.append_eq_nil_iff.1 heq.symm
  exact h

theorem PendingThrough.concat {os : List Occurrence} (h : x.PendingThrough id os)
    (hlast : (x.afterAll (os ++ [o])).store.entries[id]? = some .pending) :
    x.PendingThrough id (os ++ [o]) := by
  intro front back heq
  rcases List.eq_nil_or_concat back with rfl | ⟨back, last, rfl⟩
  · rw [List.append_nil] at heq
    exact heq ▸ hlast
  · rw [List.concat_eq_append, ← List.append_assoc] at heq
    exact h front back (List.append_inj_left' heq rfl)

/-- A call on `x` reserved the id, and what happened since then has left the entry pending and the
task that the call posted at this place. -/
structure Awaits (x : Exchange) (o : Occurrence) (since : List Occurrence) (id : RequestId)
    (place : Place) (task : Task) : Prop where
  reserves : Reserves x o id task.protocol task.request
  pending : (x.after o).PendingThrough id since
  followed : (x.after o).followAll since (.queued x.pool.queue.length) = some place
  there : ((x.after o).afterAll since).pool.at? place = some task
  slot_eq : task.slot = some id

/-- The task of a call that reserves is at the end of the queue. -/
theorem Reserves.awaits {protocol payload : String} (h : Reserves x o id protocol payload) :
    ∃ place task, Awaits x o [] id place task := by
  cases h with
  | @kept w line _ _ capacity handler _ hparse hhandler hreply hfresh hentries hqueue =>
    refine ⟨_, ⟨protocol, handler, payload, some id⟩,
      .kept hparse hhandler hreply hfresh hentries hqueue, pendingThrough_nil ?_, rfl, ?_, rfl⟩
    · show (x.call w line capacity).2.store.entries[id]? = some .pending
      rw [hentries, Std.ExtTreeMap.getElem?_insert_self]
    · show (x.call w line capacity).2.pool.queue[x.pool.queue.length]? = _
      rw [hqueue, List.getElem?_concat_length]

/-- **One step.** While the entry stays pending, the task stays somewhere. -/
theorem Awaits.after {o' : Occurrence} {since : List Occurrence}
    (h : Awaits x o since id place task)
    (hsound : ((x.after o).afterAll since).store.Sound range)
    (hpending : (((x.after o).afterAll since).after o').store.entries[id]? = some .pending)
    (hspares : Spares ((x.after o).afterAll since) id o') :
    ∃ place' task', Awaits x o (since ++ [o']) id place' task' := by
  cases hfollow : ((x.after o).afterAll since).follow o' place with
  | none =>
    -- a worker is done with the task, which is for this id
    obtain ⟨w, k, rfl, rfl⟩ := follow_eq_none hfollow
    exact absurd h.slot_eq (hspares w k task rfl h.there)
  | some place' =>
    obtain ⟨task', hthere, hsame⟩ := at?_follow (happens_after hsound o') h.there hfollow
    refine ⟨place', task', ?_, h.pending.concat ?_, ?_, ?_, hsame.slot_eq.trans h.slot_eq⟩
    · rw [hsame.protocol_eq, hsame.request_eq]
      exact h.reserves
    · rw [afterAll_concat]
      exact hpending
    · rw [followAll_concat, h.followed]
      exact hfollow
    · rw [afterAll_concat]
      exact hthere

/-- **Every pending entry of a run is awaited**, from a call in the run on. -/
theorem exists_awaits (hsound : x.store.Sound range) (hempty : x.store.entries = ∅)
    (os : List Occurrence) (hpending : (x.afterAll os).store.entries[id]? = some .pending) :
    ∃ before o since place task, os = before ++ o :: since ∧
      Awaits (x.afterAll before) o since id place task := by
  induction os using List.reverseRecOn with
  | nil =>
    rw [show (x.afterAll []).store.entries = ∅ from hempty, Std.ExtTreeMap.getElem?_empty]
      at hpending
    cases hpending
  | append_singleton os o' ih =>
    rw [afterAll_concat] at hpending
    have hpast := sound_afterAll hsound os
    -- pending before the last occurrence, with a reservation in the past, or reserved by it
    rcases pending_of_happens (happens_after hpast o') hpast hpending with
      ⟨hbefore, hspares⟩ | ⟨protocol, payload, hreserves⟩
    · obtain ⟨before, o, since, place, task, rfl, hawaits⟩ := ih hbefore
      rw [afterAll_append_cons] at hpending hspares hpast
      obtain ⟨place', task', hawaits'⟩ := hawaits.after hpast hpending hspares
      refine ⟨before, o, since ++ [o'], place', task', ?_, hawaits'⟩
      rw [List.append_assoc, List.cons_append]
    · obtain ⟨place, task, hawaits⟩ := hreserves.awaits
      exact ⟨os, o', [], place, task, rfl, hawaits⟩

/-- When a worker is done with the task, the entry has the text for its outcome. -/
theorem Awaits.completes {since : List Occurrence} {k : Nat}
    (h : Awaits x o since id (.running k) task) (w : Surroundings) :
    (((x.after o).afterAll since).after (.event (.finish w k))).store.entries[id]? =
      some (.ready (keptText
        (task.handler.execute w task.request ((x.after o).afterAll since).link).1)) := by
  have hpending := h.pending since [] (List.append_nil since).symm
  have hthere := h.there
  generalize (x.after o).afterAll since = y at hpending hthere ⊢
  have hhappens := happens_finish w k y
  generalize y.after (.event (.finish w k)) = z at hhappens ⊢
  cases hhappens with
  | @finished _ _ task' pool _ hfinish hpool hstore =>
    obtain rfl : task' = task :=
      Option.some.inj ((Pool.tasks_of_finish? hfinish).1.symm.trans hthere)
    rw [hstore, h.slot_eq]
    exact ResultStore.getElem?_complete (mem_of_getElem?_eq_some hpending) _
  | quiet hquiet hstays hnobody =>
    rw [Pool.at?, hnobody w k rfl] at hthere
    cases hthere

end Switchboard.Exchange
