import Switchboard.Proofs.Exchange.Steps

/-!
# Which result an id stands for

A posted task carries only the number of its id, and numbers are issued again once they are free. So
that a collection still gets the output of the call it belongs to, three things have to hold
together, in every run without submissions (`Consistent`): free ids and entries are balanced, no two
tasks promise the same id, and the entry of a promised id is pending.

An id that a call was answered with is then `Owed` the output of that call: while its entry is
pending the one task that promises it is to produce that output, and afterwards what the host has
collected and what the entry still holds make up the output. Each step keeps this or erases the
entry, and in the latter case the host has the whole output (`owed_of_effect`).

* **`results_correlate`**: from the answer of a call until the entry of its id is erased, the pieces
  that are collected under the id are a prefix of the output of that call, and all of it in the end;
  the id is not issued in between; and every entry belongs to an answered call.
-/

namespace Switchboard.Exchange

variable {x y : Exchange} {event : ExchangeEvent} {range : Interval} {id : RequestId}
  {answer : Handler → String → Outcome}

/-! ## Runs -/

/-- What the host collects from an id in the course of a run. -/
def collected (id : RequestId) : List ExchangeEvent → Exchange → String
  | [], _ => ""
  | event :: events, x => pieceOf id x event ++ collected id events (x.step event).2

/-- The executions of handlers in the course of a run. -/
def executions : List ExchangeEvent → Exchange → List (Handler × String × Outcome)
  | [], _ => []
  | event :: events, x => (x.executionOf? event).toList ++ executions events (x.step event).2

/-- Whether an id has an entry before every step of a run. -/
def HeldThrough (id : RequestId) (events : List ExchangeEvent) (x : Exchange) : Prop :=
  ∀ before event after, events = before ++ event :: after → id ∈ (x.run before).2.store.entries

theorem run_append (events events' : List ExchangeEvent) (x : Exchange) :
    (x.run (events ++ events')).2 = ((x.run events).2.run events').2 := by
  induction events generalizing x with
  | nil => rfl
  | cons event events ih => exact ih (x.step event).2

theorem run_fst_append (events events' : List ExchangeEvent) (x : Exchange) :
    (x.run (events ++ events')).1 = (x.run events).1 ++ ((x.run events).2.run events').1 := by
  induction events generalizing x with
  | nil => rfl
  | cons event events ih =>
    show (x.step event).1.toList ++ ((x.step event).2.run (events ++ events')).1 = _
    rw [ih, ← List.append_assoc]
    rfl

theorem executions_append (events events' : List ExchangeEvent) (x : Exchange) :
    x.executions (events ++ events') =
      x.executions events ++ (x.run events).2.executions events' := by
  induction events generalizing x with
  | nil => rfl
  | cons event events ih =>
    show (x.executionOf? event).toList ++ (x.step event).2.executions (events ++ events') = _
    rw [ih, ← List.append_assoc]
    rfl

theorem heldThrough_nil (id : RequestId) (x : Exchange) : x.HeldThrough id [] := by
  intro before event after heq
  exact absurd heq (by simp)

theorem heldThrough_cons {events : List ExchangeEvent} :
    x.HeldThrough id (event :: events) ↔
      id ∈ x.store.entries ∧ (x.step event).2.HeldThrough id events := by
  constructor
  · intro h
    refine ⟨h [] event events rfl, fun before later after heq => ?_⟩
    exact h (event :: before) later after (congrArg (event :: ·) heq)
  · rintro ⟨hmem, h⟩ before later after heq
    cases before with
    | nil => exact hmem
    | cons first before =>
      obtain ⟨rfl, hrest⟩ := List.cons.inj heq
      exact h before later after hrest

/-! ## The invariant -/

/-- Free ids and entries are balanced, no two tasks promise the same id, and the entry of a promised
id is pending. -/
structure Consistent (range : Interval) (x : Exchange) : Prop where
  sound : x.store.Sound range
  nodup : (x.promises.map Promise.id).Nodup
  pending : ∀ p ∈ x.promises, x.store.entries[p.id]? = some .pending

theorem Consistent.mem_entries (h : Consistent range x) {p : Promise} (hp : p ∈ x.promises) :
    p.id ∈ x.store.entries :=
  mem_of_getElem?_eq_some (h.pending p hp)

/-- Promises determine what their ids are for. -/
theorem Consistent.eq_of_id_eq (h : Consistent range x) {p q : Promise} (hp : p ∈ x.promises)
    (hq : q ∈ x.promises) (hid : p.id = q.id) : p = q :=
  List.inj_on_of_nodup_map h.nodup hp hq hid

/-- Issuing an id keeps the invariant. Promised ids have entries and the issued one had none, so no
promise is touched. -/
theorem Consistent.of_issues (h : Consistent range x) {entry : StoredResult}
    {promised : Option Promise} (hissues : Issues range x y id entry promised) :
    Consistent range y := by
  have hne {p : Promise} (hp : p ∈ x.promises) : id ≠ p.id :=
    fun heq => hissues.fresh (heq ▸ h.mem_entries hp)
  have hold {p : Promise} (hp : p ∈ x.promises) : y.store.entries[p.id]? = some .pending := by
    rw [hissues.entries_eq, ResultStore.getElem?_insert_of_ne (hne hp)]
    exact h.pending p hp
  cases promised with
  | none =>
    refine ⟨hissues.sound, ?_, fun p hp => hold (hissues.promises_perm.mem_iff.1 hp)⟩
    exact (hissues.promises_perm.map Promise.id).nodup_iff.2 h.nodup
  | some new =>
    obtain ⟨rfl, rfl⟩ := hissues.pending new rfl
    refine ⟨hissues.sound, ?_, fun p hp => ?_⟩
    · rw [(hissues.promises_perm.map Promise.id).nodup_iff]
      refine List.nodup_cons.2 ⟨fun hmem => ?_, h.nodup⟩
      obtain ⟨p, hp, hid⟩ := List.mem_map.1 hmem
      exact hne hp hid.symm
    · rcases List.mem_cons.1 (hissues.promises_perm.mem_iff.1 hp) with rfl | hp
      · rw [hissues.entries_eq, Std.ExtTreeMap.getElem?_insert_self]
      · exact hold hp

/-- **Every step keeps the invariant.** -/
theorem consistent_of_effect (h : Consistent range x) (heffect : Effect range x event y) :
    Consistent range y := by
  cases heffect with
  | still hstill hfetch =>
    refine ⟨hstill.sound, ?_, fun p hp => ?_⟩
    · exact (hstill.promises_perm.map Promise.id).nodup_iff.2 h.nodup
    · rw [hstill.entries_eq]
      exact h.pending p (hstill.promises_perm.mem_iff.1 hp)
  | issued hdefers hissues hfetch => exact h.of_issues hissues
  | @collected id fetch hfetch hreply hfetched hsound hpool =>
    have hpromises : y.promises = x.promises := by rw [promises, promises, hpool]
    refine ⟨hsound, hpromises ▸ h.nodup, fun p hp => ?_⟩
    have hpending := h.pending p (hpromises ▸ hp)
    by_cases heq : id = p.id
    · subst heq
      exact (hfetched.of_pending hpending).1
    · rw [hfetched.getElem?_of_ne heq, hpending]
  | @finished id handler request outcome hexec hstore hsound hpromises hfetch =>
    -- the promise of the finished task is gone, and no other task promises the same id
    have hnodup := (hpromises.map Promise.id).nodup_iff.1 h.nodup
    obtain ⟨hout, hrest⟩ := List.nodup_cons.1 hnodup
    refine ⟨hsound, hrest, fun p hp => ?_⟩
    have hne : id ≠ p.id := fun heq => hout (List.mem_map.2 ⟨p, hp, heq.symm⟩)
    rw [hstore, ResultStore.getElem?_complete_of_ne hne]
    exact h.pending p (hpromises.mem_iff.2 (List.mem_cons_of_mem _ hp))

theorem consistent_run (h : Consistent range x) {events : List ExchangeEvent}
    (hevents : ∀ e ∈ events, ∀ id text, e ≠ .submit id text) :
    Consistent range (x.run events).2 := by
  induction events generalizing x with
  | nil => exact h
  | cons event events ih =>
    obtain ⟨hevent, hlater⟩ := List.forall_mem_cons.1 hevents
    exact ih (consistent_of_effect h (effect_step h.sound hevent)) hlater

theorem wellFormed_of_freeIds {s : Settings} {draw : UInt64} {ids : FreeIds}
    (h : freeIds s draw = .ok ids) : ids.WellFormed ∧ ids.toFinset = ids.range.toFinset := by
  unfold freeIds at h
  split at h
  · unfold FreeIds.ofRandomized at h
    split at h
    · cases h
    · exact FreeIds.wellFormed_of_ofRange h
  · exact FreeIds.wellFormed_of_ofRange h

/-- What an exchange is like when it was just opened. -/
theorem eq_of_launch {s : Settings} {processors : Nat} {draw : UInt64}
    (h : launch s processors draw = .ok x) :
    ∃ ids pool, freeIds s draw = .ok ids ∧ Pool.ofSize? (s.workers processors) = some pool ∧
      x = { settings := s, store := .ofIds ids, databases := ∅, registry := ∅, link := none,
            locked := false, pool, stopped := false } := by
  unfold launch at h
  split at h
  · cases h
  · split at h
    · cases h
    · next pool hpool =>
      unfold create at h
      cases hids : freeIds s draw with
      | error fault => rw [hids] at h; cases h
      | ok ids =>
        rw [hids] at h
        cases h
        exact ⟨ids, pool, rfl, hpool, rfl⟩

/-- An exchange that was just opened has no entries and no tasks. -/
theorem consistent_launch {s : Settings} {processors : Nat} {draw : UInt64}
    (h : launch s processors draw = .ok x) :
    ∃ range, Consistent range x ∧ x.store.entries = ∅ := by
  obtain ⟨ids, pool, hids, hpool, rfl⟩ := eq_of_launch h
  obtain ⟨hwf, hset⟩ := wellFormed_of_freeIds hids
  have hpromises : pool.tasks = [] := by
    unfold Pool.ofSize? at hpool
    split at hpool
    · cases hpool
      rfl
    · cases hpool
  refine ⟨ids.range, ⟨ResultStore.sound_ofIds hwf hset, ?_, ?_⟩, rfl⟩
  · rw [promises, hpromises]
    exact List.nodup_nil
  · intro p hp
    rw [promises, hpromises] at hp
    cases hp

/-! ## What is owed -/

/-- What the host has collected under an id and what is still to come make up an output. -/
inductive Owed (answer : Handler → String → Outcome) (x : Exchange) (id : RequestId)
    (output got : String) : Prop where
  /-- A task is still to produce the output. -/
  | waiting {handler : Handler} {request : String} (hpending : x.store.entries[id]? = some .pending)
      (hpromise : ⟨id, handler, request⟩ ∈ x.promises)
      (houtput : keptText (answer handler request) = output) (hgot : got = "")
  /-- The entry holds the rest of the output. -/
  | arrived {rest : String} (hready : x.store.entries[id]? = some (.ready rest))
      (houtput : got ++ rest = output)

variable {output got : String}

theorem Owed.mem_entries (h : Owed answer x id output got) : id ∈ x.store.entries := by
  cases h with
  | waiting hpending => exact mem_of_getElem?_eq_some hpending
  | arrived hready => exact mem_of_getElem?_eq_some hready

theorem Owed.exists_rest (h : Owed answer x id output got) : ∃ rest, got ++ rest = output := by
  cases h with
  | waiting hpending hpromise houtput hgot => exact ⟨output, by rw [hgot, String.empty_append]⟩
  | arrived hready houtput => exact ⟨_, houtput⟩

/-- What leaves the entry of an id and its promise leaves what is owed. -/
theorem Owed.of_entry_eq (h : Owed answer x id output got)
    (hentry : y.store.entries[id]? = x.store.entries[id]?)
    (hpromises : ∀ p ∈ x.promises, p.id = id → p ∈ y.promises) : Owed answer y id output got := by
  cases h with
  | waiting hpending hpromise houtput hgot =>
    exact .waiting (hentry.trans hpending) (hpromises _ hpromise rfl) houtput hgot
  | arrived hready houtput => exact .arrived (hentry.trans hready) houtput

/-- Collecting from the id moves a piece of the output to the host, or all that is left of it. -/
theorem Owed.of_fetched (h : Owed answer x id output got) {fetch : Fetch}
    (hfetched : x.store.Fetched id fetch y.store) (hpromises : y.promises = x.promises) :
    Owed answer y id output (got ++ fetch.text) ∨
      id ∉ y.store.entries ∧ got ++ fetch.text = output := by
  cases h with
  | waiting hpending hpromise houtput hgot =>
    obtain ⟨hkept, htext⟩ := hfetched.of_pending hpending
    rw [htext, String.append_empty]
    exact Or.inl (.waiting hkept (hpromises.symm ▸ hpromise) houtput hgot)
  | arrived hready houtput =>
    rcases hfetched.of_ready hready with ⟨rest, hrest, htext⟩ | ⟨hout, htext⟩
    · exact Or.inl (.arrived hrest (by rw [String.append_assoc, htext, houtput]))
    · exact Or.inr ⟨hout, by rw [htext, houtput]⟩

/-- The task that promises the id brings the output. -/
theorem Owed.of_finished (h : Owed answer x id output got) (hconsistent : Consistent range x)
    {handler : Handler} {request : String} (hmem : ⟨id, handler, request⟩ ∈ x.promises)
    (hstore : y.store = x.store.complete id (keptText (answer handler request))) :
    Owed answer y id output got := by
  cases h with
  | arrived hready =>
    -- a promised entry is pending
    have hpending := hconsistent.pending _ hmem
    rw [hready] at hpending
    cases hpending
  | waiting hpending hpromise houtput hgot =>
    -- only one task promises the id, so it is this one whose output was waited for
    cases hconsistent.eq_of_id_eq hmem hpromise rfl
    refine .arrived (hstore ▸ ResultStore.getElem?_complete (hconsistent.mem_entries hmem) _) ?_
    rw [hgot, String.empty_append, houtput]

theorem pieceOf_of_none (hfetch : x.fetchOf? event = none) : pieceOf id x event = "" := by
  simp only [pieceOf, hfetch]

theorem pieceOf_of_ne {id' : RequestId} {fetch : Fetch}
    (hfetch : x.fetchOf? event = some (id', fetch)) (hne : id' ≠ id) : pieceOf id x event = "" := by
  rw [pieceOf, hfetch]
  split
  · next heq _ =>
    cases heq
    exact if_neg hne
  · rfl

theorem pieceOf_eq_text {fetch : Fetch} (hfetch : x.fetchOf? event = some (id, fetch))
    (hreply : (x.step event).1 = some (.reply (fetchText fetch))) :
    pieceOf id x event = fetch.text := by
  rw [pieceOf, hfetch, hreply]
  cases fetch with
  | data text => exact if_pos rfl
  | missing => rfl
  | notReady => rfl
  | tooLarge => rfl

/-- **A step keeps what is owed, or the host has it all.** -/
theorem owed_of_effect (h : Consistent range x) (heffect : Effect range x event y)
    (hanswer : ∀ e ∈ (x.executionOf? event).toList, e.2.2 = answer e.1 e.2.1)
    (howed : Owed answer x id output got) :
    Owed answer y id output (got ++ pieceOf id x event) ∨
      id ∉ y.store.entries ∧ got ++ pieceOf id x event = output := by
  cases heffect with
  | still hstill hfetch =>
    rw [pieceOf_of_none hfetch, String.append_empty]
    exact Or.inl (howed.of_entry_eq (hstill.entries_eq id)
      fun p hp _ => hstill.promises_perm.mem_iff.2 hp)
  | @issued id' handler payload entry promised hdefers hissues hfetch =>
    have hne : id' ≠ id := fun heq => hissues.fresh (heq ▸ howed.mem_entries)
    rw [pieceOf_of_none hfetch, String.append_empty]
    refine Or.inl (howed.of_entry_eq ?_ fun p hp _ => ?_)
    · rw [hissues.entries_eq, ResultStore.getElem?_insert_of_ne hne]
    · exact hissues.promises_perm.mem_iff.2 (List.mem_append_right _ hp)
  | @collected id' fetch hfetch hreply hfetched hsound hpool =>
    have hpromises : y.promises = x.promises := by rw [promises, promises, hpool]
    by_cases heq : id' = id
    · subst heq
      rw [pieceOf_eq_text hfetch hreply]
      exact howed.of_fetched hfetched hpromises
    · rw [pieceOf_of_ne hfetch heq, String.append_empty]
      exact Or.inl (howed.of_entry_eq (hfetched.getElem?_of_ne heq)
        fun p hp _ => hpromises.symm ▸ hp)
  | @finished id' handler request outcome hexec hstore hsound hpromises hfetch =>
    rw [pieceOf_of_none hfetch, String.append_empty]
    left
    by_cases heq : id' = id
    · subst heq
      have hmem : ⟨id', handler, request⟩ ∈ x.promises :=
        hpromises.mem_iff.2 List.mem_cons_self
      have houtcome : outcome = answer handler request := hanswer _ (Option.mem_toList.2 hexec)
      exact howed.of_finished h hmem (houtcome ▸ hstore)
    · have hentry := hstore ▸ ResultStore.getElem?_complete_of_ne heq _
      refine howed.of_entry_eq hentry fun p hp hid => ?_
      rcases List.mem_cons.1 (hpromises.mem_iff.1 hp) with rfl | hp
      · exact absurd hid heq
      · exact hp

/-- A deferred call is owed its output, of which nothing has been collected. -/
theorem Defers.owed {handler : Handler} {payload : String} (hsound : x.store.Sound range)
    (hanswer : ∀ e ∈ (x.executionOf? event).toList, e.2.2 = answer e.1 e.2.1)
    (hdefers : Defers x event id handler payload) :
    Owed answer (x.step event).2 id (keptText (answer handler payload)) "" := by
  rcases hdefers.issues hsound with ⟨text, hexec, hissues⟩ | hissues
  · have hready : (x.step event).2.store.entries[id]? = some (.ready text) := by
      rw [hissues.entries_eq, Std.ExtTreeMap.getElem?_insert_self]
    have houtcome : .reply text = answer handler payload := hanswer _ (Option.mem_toList.2 hexec)
    refine .arrived hready ?_
    rw [String.empty_append, ← houtcome]
    rfl
  · have hpending : (x.step event).2.store.entries[id]? = some .pending := by
      rw [hissues.entries_eq, Std.ExtTreeMap.getElem?_insert_self]
    exact .waiting hpending (hissues.promises_perm.mem_iff.2 List.mem_cons_self) rfl rfl

/-- As long as the entry is there before each step, what is owed is kept, or with the last step the
host has it all. -/
theorem owed_run (h : Consistent range x) {events : List ExchangeEvent}
    (hevents : ∀ e ∈ events, ∀ id text, e ≠ .submit id text)
    (hanswer : ∀ e ∈ x.executions events, e.2.2 = answer e.1 e.2.1)
    (howed : Owed answer x id output got) (hheld : x.HeldThrough id events) :
    Owed answer (x.run events).2 id output (got ++ collected id events x) ∨
      id ∉ (x.run events).2.store.entries ∧ got ++ collected id events x = output := by
  induction events generalizing x got with
  | nil =>
    rw [collected, String.append_empty]
    exact Or.inl howed
  | cons event events ih =>
    obtain ⟨hevent, hlater⟩ := List.forall_mem_cons.1 hevents
    obtain ⟨hhere, hrest⟩ := List.forall_mem_append.1 hanswer
    have hheldLater := (heldThrough_cons.1 hheld).2
    have heffect := effect_step h.sound hevent
    rw [collected, ← String.append_assoc]
    rcases owed_of_effect h heffect hhere howed with howed | ⟨hout, htext⟩
    · exact ih (consistent_of_effect h heffect) hlater hrest howed hheldLater
    · -- the entry is gone, so this was the last step
      cases events with
      | nil => exact Or.inr ⟨hout, by rw [htext, collected, String.append_empty]⟩
      | cons next events => exact absurd (heldThrough_cons.1 hheldLater).1 hout

/-- An entry that an event leaves was there before, or a call was answered with its id. -/
theorem mem_or_defers (hsound : x.store.Sound range) (hevent : ∀ id text, event ≠ .submit id text)
    (hmem : id ∈ (x.step event).2.store.entries) :
    id ∈ x.store.entries ∨ ∃ handler payload, Defers x event id handler payload := by
  cases effect_step hsound hevent with
  | still hstill hfetch =>
    left
    rw [Std.ExtTreeMap.mem_iff_isSome_getElem?, ← hstill.entries_eq,
      ← Std.ExtTreeMap.mem_iff_isSome_getElem?]
    exact hmem
  | @issued id' handler payload entry promised hdefers hissues hfetch =>
    by_cases heq : id' = id
    · exact Or.inr ⟨handler, payload, heq ▸ hdefers⟩
    · left
      rw [Std.ExtTreeMap.mem_iff_isSome_getElem?, ← ResultStore.getElem?_insert_of_ne heq entry,
        ← hissues.entries_eq, ← Std.ExtTreeMap.mem_iff_isSome_getElem?]
      exact hmem
  | collected hfetch hreply hfetched hsound hpool => exact Or.inl (hfetched.mem_of_mem hmem)
  | @finished id' handler request outcome hexec hstore hsound hpromises hfetch =>
    rw [hstore] at hmem
    exact Or.inl (ResultStore.mem_of_mem_complete hmem)

/-- Every entry that a run leaves was there all the time, or a call was answered with its id and it
has been there since. -/
theorem held_or_defers (h : Consistent range x) {events : List ExchangeEvent}
    (hevents : ∀ e ∈ events, ∀ id text, e ≠ .submit id text)
    (hmem : id ∈ (x.run events).2.store.entries) :
    (id ∈ x.store.entries ∧ x.HeldThrough id events) ∨
      ∃ before event after handler payload, events = before ++ event :: after ∧
        Defers (x.run before).2 event id handler payload ∧
        ((x.run before).2.step event).2.HeldThrough id after := by
  induction events generalizing x with
  | nil => exact Or.inl ⟨hmem, heldThrough_nil id x⟩
  | cons event events ih =>
    obtain ⟨hevent, hlater⟩ := List.forall_mem_cons.1 hevents
    have hnext := consistent_of_effect h (effect_step h.sound hevent)
    rcases ih hnext hlater hmem with
      ⟨hafter, hheld⟩ | ⟨before, later, after, handler, payload, heq, hdefers, hheld⟩
    · rcases mem_or_defers h.sound hevent hafter with hbefore | ⟨handler, payload, hdefers⟩
      · exact Or.inl ⟨hbefore, heldThrough_cons.2 ⟨hbefore, hheld⟩⟩
      · exact Or.inr ⟨[], event, events, handler, payload, rfl, hdefers, hheld⟩
    · exact Or.inr ⟨event :: before, later, after, handler, payload, congrArg (event :: ·) heq,
        hdefers, hheld⟩

/-! ## The theorem -/

/-- **Every collection gets the output of the call its id was issued for.** Take an exchange that
was just opened, and a run without submissions in which handlers answer as a function of what they
are asked. After a call was answered with an id, and as long as the id has an entry before each
step: the pieces collected under it are a prefix of the output of that call, they are the whole
output once the entry is erased, and no call is answered with the same id. Every entry belongs to an
id that a call was answered with, and has been there since. -/
theorem results_correlate {s : Settings} {processors : Nat} {draw : UInt64}
    (hlaunch : launch s processors draw = .ok x) {events : List ExchangeEvent}
    (hevents : ∀ e ∈ events, ∀ id text, e ≠ .submit id text)
    (hanswer : ∀ e ∈ x.executions events, e.2.2 = answer e.1 e.2.1) :
    (∀ before event during after id handler payload,
      events = before ++ event :: (during ++ after) →
      Defers (x.run before).2 event id handler payload →
      ((x.run before).2.step event).2.HeldThrough id during →
      id ∈ ((x.run before).2.step event).2.store.entries ∧
      (∃ rest, collected id during ((x.run before).2.step event).2 ++ rest =
        keptText (answer handler payload)) ∧
      (id ∉ (((x.run before).2.step event).2.run during).2.store.entries →
        collected id during ((x.run before).2.step event).2 = keptText (answer handler payload)) ∧
      ∀ front later back, during = front ++ later :: back → ∀ handler' payload',
        ¬ Defers (((x.run before).2.step event).2.run front).2 later id handler' payload') ∧
    ∀ id ∈ (x.run events).2.store.entries, ∃ before event after handler payload,
      events = before ++ event :: after ∧ Defers (x.run before).2 event id handler payload ∧
      ((x.run before).2.step event).2.HeldThrough id after := by
  obtain ⟨range, hstart, hempty⟩ := consistent_launch hlaunch
  refine ⟨?_, fun id hmem => ?_⟩
  · rintro before event during after id handler payload rfl hdefers hheld
    obtain ⟨hbefore, hlater⟩ := List.forall_mem_append.1 hevents
    obtain ⟨hevent, hlater⟩ := List.forall_mem_cons.1 hlater
    obtain ⟨hduring, -⟩ := List.forall_mem_append.1 hlater
    rw [executions_append] at hanswer
    obtain ⟨-, hlater⟩ := List.forall_mem_append.1 hanswer
    obtain ⟨hhere, hlater⟩ := List.forall_mem_append.1 hlater
    rw [executions_append] at hlater
    obtain ⟨hanswered, -⟩ := List.forall_mem_append.1 hlater
    have hpast := consistent_run hstart hbefore
    generalize (x.run before).2 = x at hdefers hheld hhere hanswered hpast ⊢
    have hnext := consistent_of_effect hpast (effect_step hpast.sound hevent)
    have howed := hdefers.owed hpast.sound hhere
    refine ⟨howed.mem_entries, ?_, ?_, ?_⟩
    · rcases owed_run hnext hduring hanswered howed hheld with h | ⟨-, htext⟩
      · obtain ⟨rest, hrest⟩ := h.exists_rest
        exact ⟨rest, by rw [← hrest, String.empty_append]⟩
      · exact ⟨"", by rw [String.append_empty, ← htext, String.empty_append]⟩
    · intro hout
      rcases owed_run hnext hduring hanswered howed hheld with h | ⟨-, htext⟩
      · exact absurd h.mem_entries hout
      · rw [← htext, String.empty_append]
    · rintro front later back rfl handler' payload' hagain
      have hsound := (consistent_run hnext (List.forall_mem_append.1 hduring).1).sound
      exact hagain.fresh hsound (hheld front later back rfl)
  · rcases held_or_defers hstart hevents hmem with ⟨hmem, -⟩ | h
    · rw [hempty] at hmem
      exact absurd hmem Std.ExtTreeMap.not_mem_empty
    · exact h

/-! An engine that echoes, asked by a worker and collected from in two ways. -/

/-- An exchange that was opened with settings that leave ids in order. -/
def echoStart : Exchange where
  settings := { testMode := true }
  store := .ofIds ⟨⟨1, 2147483647⟩, [⟨1, 2147483647⟩]⟩
  databases := ∅
  registry := ∅
  link := none
  locked := false
  pool := .ofSize 1
  stopped := false

def echoSurroundings : Surroundings :=
  ⟨⟨0, fun _ => 0⟩, fun _ => [], fun _ => none⟩

def echoSetup : ExchangeEvent :=
  .addEngine "e" ⟨fun _ _ => some .reply⟩ none ""

def echoCall : ExchangeEvent :=
  .call echoSurroundings "2:e:hello" 9

/-- Collecting before the worker is done, then a piece, then the rest. -/
def echoCollection : List ExchangeEvent :=
  [.start, .call echoSurroundings "5:1" 9, .finish echoSurroundings 0,
    .call echoSurroundings "5:1" 3, .call echoSurroundings "4:1" 9]

def echoAnswer : Handler → String → Outcome
  | .engine answer, request => answer request
  | _, _ => .panic

theorem echoCall_defers :
    Defers (echoStart.run [echoSetup]).2 echoCall 1 (.engine .reply) "hello" := by
  have hparse : Command.parse "2:e:hello" = .ok (.run .kept "e" "hello") := by decide +kernel
  refine .kept hparse ?_ (by decide +kernel)
  show (Registry.register false ⟨"e", .engine ⟨fun _ _ => some .reply⟩, none, ""⟩ ∅).2["e"]? = _
  exact Std.ExtTreeMap.getElem?_insert_self

/-- The worker's output is collected in two pieces. -/
theorem results_correlate_of_echo :
    launch { testMode := true } 1 0 = .ok echoStart ∧
    collected 1 echoCollection (echoStart.run [echoSetup, echoCall]).2 = "hello" := by
  have hlaunch : launch { testMode := true } 1 0 = .ok echoStart := rfl
  have hevents : ∀ e ∈ echoSetup :: echoCall :: echoCollection, ∀ id text, e ≠ .submit id text := by
    intro e he id text heq
    subst heq
    simp [echoSetup, echoCall, echoCollection] at he
  have hanswer : ∀ e ∈ echoStart.executions (echoSetup :: echoCall :: echoCollection),
      e.2.2 = echoAnswer e.1 e.2.1 := by
    decide +kernel
  have hheld : (echoStart.run [echoSetup, echoCall]).2.HeldThrough 1 echoCollection := by
    simp only [echoCollection, heldThrough_cons, heldThrough_nil]
    decide +kernel
  have h := (results_correlate hlaunch hevents hanswer).1 [echoSetup] echoCall echoCollection [] 1
    (.engine .reply) "hello" rfl echoCall_defers hheld
  refine ⟨hlaunch, h.2.2.1 ?_⟩
  decide +kernel

end Switchboard.Exchange
