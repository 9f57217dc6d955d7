import Switchboard.Proofs.Exchange.Setup

/-!
# A refused call changes nothing

A call is refused because its line is no command or for one of the reasons of its command
(`Refusal`). Most are found before anything is done. Two come later: a kept call has its id reserved
and its entry parked when the pool turns out to be closed, and takes both back; and a relay that is
run at once has queued its request on the link when no id is left for its answer. The request stays
queued, and it is the only thing that a refused call can leave (`Untouched`, `LeavesRequest`).
-/

namespace Switchboard.Exchange

open Admin (Link)

variable {x y : Exchange} {w : Surroundings} {range : Interval} {line : String} {fault : Fault}

/-- Why a call is refused. -/
inductive CallRefusal (w : Surroundings) (x : Exchange) (line : String) : Fault → Prop where
  | malformed {fault : CallFault} (hparse : Command.parse line = .error fault) :
      CallRefusal w x line (.call fault)
  | refused {command : Command} {fault : Fault} (hparse : Command.parse line = .ok command)
      (hrefusal : Refusal w x command fault) : CallRefusal w x line fault

/-- Entries, free ids, bindings, lock and tasks are what they were, and the slot holds the link that
it held. -/
structure Untouched (x y : Exchange) : Prop where
  entries : y.store.entries = x.store.entries
  /-- The free ids, interval by interval. -/
  ids : y.store.ids = x.store.ids
  registry : y.registry = x.registry
  databases : y.databases = x.databases
  locked : y.locked = x.locked
  pool : y.pool = x.pool
  slot : SameSlot x.link y.link

theorem untouched_refl (x : Exchange) : Untouched x x :=
  ⟨rfl, rfl, rfl, rfl, rfl, rfl, .refl _⟩

/-- A relay was run at once and has queued its request, and no id is left for its answer. -/
inductive LeavesRequest (x : Exchange) (line : String) : Fault → Exchange → Prop where
  | relayed {protocol payload : String} {l : Link}
      (hparse : Command.parse line = .ok (.run .inline protocol payload))
      (hhandler : x.registry[protocol]? = some .relay) (hlink : x.link = some l)
      (hnone : x.store.issue = none) :
      LeavesRequest x line (.call .idSpaceExhausted) { x with link := some (l.enqueue payload) }

/-- Another link would be a difference, but a request on the same one is none to the slot. -/
theorem LeavesRequest.untouched (h : LeavesRequest x line fault y) : Untouched x y := by
  cases h with
  | @relayed _ payload l hparse hhandler hlink hnone =>
    exact ⟨rfl, rfl, rfl, rfl, rfl, rfl, hlink ▸ .some (l.later_enqueue payload)⟩

/-- **What a refused call leaves.** -/
theorem Attempted.of_error (h : Attempted w x line (.error fault) y) :
    CallRefusal w x line fault ∧ (y = x ∨ LeavesRequest x line fault y) := by
  cases h with
  | malformed hparse => exact ⟨.malformed hparse, Or.inl rfl⟩
  | carried hparse hcarried =>
    cases hcarried with
    | refused hrefusal => exact ⟨.refused hparse hrefusal, Or.inl rfl⟩
    | unanswered hhandler hlink hnone =>
      exact ⟨.refused hparse (.exhausted nofun hnone),
        Or.inr (.relayed hparse hhandler hlink hnone)⟩

/-- **A refused call changes nothing.** Take any moment after an exchange was opened, any line and
any buffer. If the call fails, the host is answered with the error and there is a reason for it.
Afterwards entries, free ids, handlers, sessions, lock and tasks are what they were, interval by
interval and task by task, and the slot holds the same link. Nothing else differs either, except in
one case: a relay that was run at once has queued its request on the link, and there is no id left
to store its answer under. -/
theorem refused_changes_nothing {s : Settings} {processors : Nat} {draw : UInt64}
    (hlaunch : launch s processors draw = .ok x) (os : List Occurrence) (w : Surroundings)
    (line : String) (capacity : Nat) {fault : Fault}
    (hfault : ((x.afterAll os).attempt w line capacity).1 = .error fault) :
    ((x.afterAll os).call w line capacity).1 =
        .reply (Token.error fault.hostMessage).render ∧
      CallRefusal w (x.afterAll os) line fault ∧
      Untouched (x.afterAll os) ((x.afterAll os).call w line capacity).2 ∧
      (((x.afterAll os).call w line capacity).2 = x.afterAll os ∨
        LeavesRequest (x.afterAll os) line fault ((x.afterAll os).call w line capacity).2) := by
  obtain ⟨range, hstart, -⟩ := consistent_launch hlaunch
  have hattempted :=
    attempted_attempt w (sound_afterAll hstart.sound os) line capacity
  rw [hfault] at hattempted
  obtain ⟨hrefusal, hleft⟩ := hattempted.of_error
  rw [call_eq, hfault]
  refine ⟨rfl, hrefusal, ?_, hleft⟩
  rcases hleft with heq | hrequest
  · rw [heq]
    exact untouched_refl (x.afterAll os)
  · exact hrequest.untouched

/-! A call that fails half way: its id is reserved, and the pool is closed. -/

/-- The utilities are registered, and the pool is closed. -/
def closedSetup : List Occurrence :=
  [.event (.call echoSurroundings "9:ADD::MISC:m" 100), .event .close]

theorem refused_changes_nothing_when_closed :
    launch { testMode := true } 1 0 = .ok echoStart ∧
    ((echoStart.afterAll closedSetup).call echoSurroundings "2:m:UNIQUE:1" 100).1 =
      .reply "[0,\"Worker pool is shut down\"]" ∧
    ((echoStart.afterAll closedSetup).call echoSurroundings "2:m:UNIQUE:1" 100).2.store.ids =
      (echoStart.afterAll closedSetup).store.ids ∧
    ((echoStart.afterAll closedSetup).call echoSurroundings "2:m:UNIQUE:1" 100).2.store.entries =
      (echoStart.afterAll closedSetup).store.entries := by
  have hlaunch : launch { testMode := true } 1 0 = .ok echoStart := rfl
  have hfault : ((echoStart.afterAll closedSetup).attempt echoSurroundings "2:m:UNIQUE:1" 100).1 =
      .error (.call .poolClosed) := by
    decide +kernel
  obtain ⟨hreply, -, huntouched, -⟩ := refused_changes_nothing hlaunch closedSetup
    echoSurroundings "2:m:UNIQUE:1" 100 hfault
  refine ⟨hlaunch, ?_, huntouched.ids, huntouched.entries⟩
  rw [hreply]
  decide +kernel

end Switchboard.Exchange
