import Switchboard.Proofs.Exchange.BreakingOff
import Switchboard.Proofs.Exchange.Shutdown

/-!
# The link after a shutdown

Shutting down gives up the link, but nothing in an exchange that was shut down keeps a host from
starting another one: the pool refuses tasks, and the command that starts a link does not ask the
pool. A second shutdown does not repair it, because it does nothing at all.

* **`Sequel`**: what may follow a shutdown: anything that can happen to an exchange, and further
  shutdowns, which leave it as it is (`shutdown_of_stopped`).
* **`StartsLink`**: a call that starts a link. Of all that can happen it alone fills an empty slot,
  and of all that can happen after a shutdown nothing empties a slot that is filled
  (`link_isSome_after`).
* **`StartsLinkIn`**: somewhere in a history there is such a call; the history is followed with
  `link_isSome_afterSequels`.
-/

namespace Switchboard

open Admin (Endpoint)

/-- Something that may follow a shutdown. -/
inductive Sequel where
  | occurrence (o : Occurrence)
  | shutdown (w : Surroundings)

theorem SameSlot.isSome_eq {a b : Option Admin.Link} (h : SameSlot a b) : b.isSome = a.isSome := by
  cases h <;> rfl

namespace Exchange

variable {x y : Exchange} {w : Surroundings} {range : Interval} {o : Occurrence} {s : Sequel}

def afterSequel (s : Sequel) (x : Exchange) : Exchange :=
  match s with
  | .occurrence o => x.after o
  | .shutdown w => x.shutdown w

def afterSequels (later : List Sequel) (x : Exchange) : Exchange :=
  later.foldl (fun x s => x.afterSequel s) x

/-! ## Once stopped -/

theorem shutdown_of_stopped (h : x.stopped = true) (w : Surroundings) : x.shutdown w = x := by
  rw [shutdown, h]
  rfl

theorem stopped_shutdown (w : Surroundings) (x : Exchange) : (x.shutdown w).stopped = true := by
  cases h : x.stopped with
  | true => rw [shutdown_of_stopped h, h]
  | false =>
    obtain ⟨-, -, hstopped⟩ := exists_afterAll_work w (fun _ => false) x.close
    rw [shutdown, h]
    exact hstopped

theorem Binds.stopped {command : SystemCommand} (h : Binds w x command y) :
    y.stopped = x.stopped := by
  cases h <;> rfl

theorem stopped_call (hsound : x.store.Sound range) (w : Surroundings) (line : String)
    (capacity : Nat) : (x.call w line capacity).2.stopped = x.stopped := by
  have hattempted := attempted_attempt w hsound line capacity
  rw [call_eq]
  generalize x.attempt w line capacity = r at hattempted ⊢
  obtain ⟨result, y⟩ := r
  cases hattempted with
  | malformed hparse => rfl
  | carried hparse hcarried =>
    cases hcarried with
    | bound hunlocked hbinds => exact hbinds.stopped
    | refused | unanswered | brokeOff | answered | posted | fetched | told | locked | unnamed => rfl

/-- Nothing takes it back that an exchange was stopped. -/
theorem stopped_after (hsound : x.store.Sound range) (h : x.stopped = true) (o : Occurrence) :
    (x.after o).stopped = true := by
  cases o with
  | change change => exact h
  | event event =>
    cases event with
    | call w line capacity => exact (stopped_call hsound w line capacity).trans h
    | start =>
      show (x.startTask?.getD x).stopped = true
      cases hstart : x.startTask? with
      | none => exact h
      | some y =>
        obtain ⟨r, -, rfl⟩ := Option.map_eq_some_iff.1 hstart
        exact h
    | finish w place =>
      show ((x.finishTask? w place).getD x).stopped = true
      cases hfinish : x.finishTask? w place with
      | none => exact h
      | some y =>
        obtain ⟨r, -, rfl⟩ := Option.map_eq_some_iff.1 hfinish
        rw [Option.getD_some, perform]
        cases r.1.slot <;> exact h
    | submit id text => exact h
    | enqueue text =>
      show (x.enqueue text).2.stopped = true
      rw [enqueue_snd]
      exact h
    | addEngine name engine database args =>
      show (x.addEngine name engine database args).2.stopped = true
      unfold addEngine
      cases x.sessionOf database <;> exact h
    | link event => exact h
    | close => rfl
    | stopLink =>
      show (if x.stopped && x.pool.isIdle then x.stopLink else x).stopped = true
      split <;> exact h

/-- An exchange that was stopped, with its store in order. -/
structure Halted (range : Interval) (x : Exchange) : Prop where
  sound : x.store.Sound range
  stopped : x.stopped = true

theorem Halted.afterSequel_shutdown (h : Halted range x) (w : Surroundings) :
    x.afterSequel (.shutdown w) = x :=
  shutdown_of_stopped h.stopped w

theorem Halted.afterSequel (h : Halted range x) (s : Sequel) : Halted range (x.afterSequel s) := by
  cases s with
  | occurrence o => exact ⟨sound_after h.sound o, stopped_after h.sound h.stopped o⟩
  | shutdown w =>
    rw [h.afterSequel_shutdown]
    exact h

theorem Halted.afterSequels (h : Halted range x) (later : List Sequel) :
    Halted range (x.afterSequels later) := by
  induction later generalizing x with
  | nil => exact h
  | cons s later ih => exact ih (h.afterSequel s)

theorem halted_shutdown (hsound : x.store.Sound range) (hrunning : x.stopped = false)
    (w : Surroundings) : Halted range (x.shutdown w) ∧ (x.shutdown w).link = none := by
  -- what is true of every run is true of the one that a shutdown is
  obtain ⟨-, os, hos⟩ := retired_shutdown hsound hrunning w
  refine ⟨⟨?_, stopped_shutdown w x⟩, ?_⟩
  · rw [← hos]
    exact sound_afterAll hsound os
  · rw [shutdown, hrunning]
    rfl

/-! ## Who fills the slot -/

/-- A call that starts a link and is answered that all went well. -/
inductive StartsLink (x : Exchange) : Sequel → Prop where
  | call {w : Surroundings} {line config : String} {capacity : Nat}
      (hsetsUp : SetsUp w x line capacity (.startConsole config)) :
      StartsLink x (.occurrence (.event (.call w line capacity)))

/-- **What fills the slot.** Unless the link is given up, the slot is filled after an occurrence if
it was before, or if the occurrence is a call that starts a link. -/
theorem link_isSome_after (hsound : x.store.Sound range) (hstays : o ≠ .event .stopLink) :
    (x.after o).link.isSome = true ↔ x.link.isSome = true ∨ StartsLink x (.occurrence o) := by
  have hsets := sets_after hsound o
  constructor
  · intro hfilled
    generalize x.after o = y at hsets hfilled
    cases hsets with
    | kept hsame hlock => exact Or.inl (hsame.slot.isSome_eq ▸ hfilled)
    | locked hparse => exact Or.inl hfilled
    | bound hsetsUp hunlocked hbinds =>
      cases hbinds with
      | link hempty hentry hendpoint => exact Or.inr (.call hsetsUp)
      | session hfree hentry => exact Or.inl hfilled
      | handler hfree hsession hkind hinit => exact Or.inl hfilled
    | engine hfree => exact Or.inl hfilled
    | changed change => exact Or.inl hfilled
    | gaveUp => exact absurd rfl hstays
  · rintro (hfilled | hstarts)
    · obtain ⟨l, hl⟩ := Option.isSome_iff_exists.1 hfilled
      obtain ⟨l', hl', -⟩ := hsets.link_kept hstays hl
      rw [hl', Option.isSome_some]
    · cases hstarts with
      | @call w line config capacity hsetsUp =>
        have hbinds := hsetsUp.binds hsound
        show (x.call w line capacity).2.link.isSome = true
        generalize (x.call w line capacity).2 = y at hbinds
        cases hbinds
        rfl

theorem Halted.link_isSome_afterSequel (h : Halted range x)
    (hstays : s ≠ .occurrence (.event .stopLink)) :
    (x.afterSequel s).link.isSome = true ↔ x.link.isSome = true ∨ StartsLink x s := by
  cases s with
  | occurrence o => exact link_isSome_after h.sound fun heq => hstays (congrArg _ heq)
  | shutdown w =>
    rw [h.afterSequel_shutdown]
    exact ⟨Or.inl, fun hfilled => hfilled.resolve_right nofun⟩

theorem not_startsLink_of_locked (hlocked : x.locked = true) : ¬ StartsLink x s := by
  rintro ⟨hsetsUp⟩
  have hreply := hsetsUp.reply_eq
  simp only [call, attempt, hsetsUp.parse_eq, execute, runSystem, hsetsUp.isSetup, hlocked,
    Bool.and_self, ↓reduceIte] at hreply
  exact Token.render_error_ne_ok _ (Outcome.reply.inj hreply)

theorem Halted.locked_afterSequel (h : Halted range x) (hlocked : x.locked = true) (s : Sequel) :
    (x.afterSequel s).locked = true := by
  cases s with
  | occurrence o => exact (sets_after h.sound o).locked_kept hlocked
  | shutdown w =>
    rw [h.afterSequel_shutdown]
    exact hlocked

/-! ## Histories -/

/-- Somewhere in a history there is a call that starts a link. -/
def StartsLinkIn (later : List Sequel) (x : Exchange) : Prop :=
  ∃ before s since, later = before ++ s :: since ∧ StartsLink (x.afterSequels before) s

theorem not_startsLinkIn_nil (x : Exchange) : ¬ StartsLinkIn [] x := by
  rintro ⟨before, s, since, hsplit, -⟩
  exact List.append_ne_nil_of_right_ne_nil before (List.cons_ne_nil s since) hsplit.symm

theorem startsLinkIn_cons {later : List Sequel} :
    StartsLinkIn (s :: later) x ↔ StartsLink x s ∨ StartsLinkIn later (x.afterSequel s) := by
  constructor
  · rintro ⟨before, s', since, hsplit, hstarts⟩
    cases before with
    | nil =>
      cases hsplit
      exact Or.inl hstarts
    | cons first before =>
      cases hsplit
      exact Or.inr ⟨before, s', since, rfl, hstarts⟩
  · rintro (hstarts | ⟨before, s', since, rfl, hstarts⟩)
    · exact ⟨[], s, later, rfl, hstarts⟩
    · exact ⟨s :: before, s', since, rfl, hstarts⟩

/-- **Along a history of a stopped exchange**, in which nobody gives up the link. -/
theorem Halted.link_isSome_afterSequels (h : Halted range x) {later : List Sequel}
    (hstays : Sequel.occurrence (.event .stopLink) ∉ later) :
    (x.afterSequels later).link.isSome = true ↔
      x.link.isSome = true ∨ StartsLinkIn later x := by
  induction later generalizing x with
  | nil => exact ⟨Or.inl, fun hfilled => hfilled.resolve_right (not_startsLinkIn_nil x)⟩
  | cons s later ih =>
    rw [List.mem_cons, not_or] at hstays
    -- the link is there after the first step, or it is started in the rest
    rw [startsLinkIn_cons, ← or_assoc, ← h.link_isSome_afterSequel (Ne.symm hstays.1)]
    exact ih (h.afterSequel s) hstays.2

theorem Halted.not_startsLinkIn_of_locked (h : Halted range x) (hlocked : x.locked = true)
    (later : List Sequel) : ¬ StartsLinkIn later x := by
  induction later generalizing x with
  | nil => exact not_startsLinkIn_nil x
  | cons s later ih =>
    rw [startsLinkIn_cons, not_or]
    exact ⟨not_startsLink_of_locked hlocked,
      ih (h.afterSequel s) (h.locked_afterSequel hlocked s)⟩

/-! ## When a call starts a link -/

/-- All that a line needs to start a link. Whether the exchange was shut down is no part of it. -/
inductive MayStart (w : Surroundings) (x : Exchange) (line : String) : Prop where
  | console {config : String} {entry : ConsoleSection} {endpoint : Endpoint}
      (hparse : Command.parse line = .ok (.system (.startConsole config)))
      (hunlocked : x.locked = false) (hempty : x.link = none)
      (hentry : x.settings.consoles[config]? = some entry)
      (hendpoint : Endpoint.ofSection w.lookup entry = .ok endpoint)
      (hname : '\x00' ∉ config.toList)

theorem startsLink_call_iff (hsound : x.store.Sound range) {line : String} {capacity : Nat} :
    StartsLink x (.occurrence (.event (.call w line capacity))) ↔ MayStart w x line := by
  constructor
  · rintro ⟨hsetsUp⟩
    have hreply := hsetsUp.reply_eq
    have hlocked (hlocked : x.locked = true) : False :=
      not_startsLink_of_locked hlocked (.call hsetsUp)
    have hbinds := hsetsUp.binds hsound
    generalize (x.call w line capacity).2 = y at hbinds
    cases hbinds with
    | link hempty hentry hendpoint =>
      have hunlocked : x.locked = false := Bool.eq_false_iff.2 hlocked
      refine .console hsetsUp.parse_eq hunlocked hempty hentry hendpoint fun hname => ?_
      -- a call for a section without a usable name breaks off
      have hbreaks : BreaksOff w x line :=
        .unnamed hsetsUp.parse_eq hunlocked hempty hentry hendpoint hname
      rw [call_eq, hbreaks.attempt_fst] at hreply
      cases hreply
  · rintro ⟨hparse, hunlocked, hempty, hentry, hendpoint, hname⟩
    refine .call ⟨hparse, rfl, ?_⟩
    simp only [call, attempt, hparse, execute, runSystem_startConsole hunlocked, startLink, hempty,
      hentry, hendpoint, Admin.Link.start?, hname, Option.isSome_none, Bool.false_eq_true,
      ↓reduceIte, setupResult]

/-! ## The theorem -/

/-- **A shutdown gives up the link, and a later call can start another.** Take any moment after an
exchange was opened, and shut it down then. There is no link right after. Whatever follows, calls,
workers and further shutdowns in any order, there is a link exactly if a call has started one since;
a call does so whenever the exchange is not locked, has no link, and finds the section and its host,
just as before the shutdown. Further shutdowns change nothing, so the new link stays. Only an
exchange that was locked when it was shut down has no link for good. -/
theorem link_after_shutdown_iff_restarted {settings : Settings} {processors : Nat} {draw : UInt64}
    (hlaunch : launch settings processors draw = .ok x) (os : List Occurrence)
    (hrunning : (x.afterAll os).stopped = false) (hshut : (x.afterAll os).shutdown w = y) :
    y.link = none ∧
    (∀ later, Sequel.occurrence (.event .stopLink) ∉ later →
      ((y.afterSequels later).link.isSome = true ↔ StartsLinkIn later y)) ∧
    (∀ later w' line capacity,
      StartsLink (y.afterSequels later) (.occurrence (.event (.call w' line capacity))) ↔
        MayStart w' (y.afterSequels later) line) ∧
    (∀ later w', (y.afterSequels later).shutdown w' = y.afterSequels later) ∧
    (y.locked = true → ∀ later, Sequel.occurrence (.event .stopLink) ∉ later →
      (y.afterSequels later).link = none) := by
  obtain ⟨range, hstart, -⟩ := consistent_launch hlaunch
  obtain ⟨hhalted, hempty⟩ := halted_shutdown (sound_afterAll hstart.sound os) hrunning w
  rw [hshut] at hhalted hempty
  have hfilled {later : List Sequel} (hstays : Sequel.occurrence (.event .stopLink) ∉ later) :
      (y.afterSequels later).link.isSome = true ↔ StartsLinkIn later y := by
    rw [hhalted.link_isSome_afterSequels hstays, hempty]
    exact or_iff_right Bool.false_ne_true
  refine ⟨hempty, fun later => hfilled, fun later w' line capacity => ?_, fun later w' => ?_,
    fun hlocked later hstays => ?_⟩
  · exact startsLink_call_iff (hhalted.afterSequels later).sound
  · exact shutdown_of_stopped (hhalted.afterSequels later).stopped w'
  · refine Option.not_isSome_iff_eq_none.1 fun h => ?_
    exact hhalted.not_startsLinkIn_of_locked hlocked later ((hfilled hstays).1 h)

/-! A console, to which a link is started after the shutdown. -/

def consoleStart : Exchange :=
  { echoStart with
    settings := {
      testMode := true
      consoles := (∅ : Std.ExtTreeMap _ _).insert "main" ({} : ConsoleSection) } }

def restart : Sequel :=
  .occurrence (.event (.call echoSurroundings "9:START_RCON:main" 100))

/-- A shutdown is not final: the call that starts a link is answered as before, and another shutdown
does not give the link up. -/
theorem link_starts_after_shutdown :
    launch consoleStart.settings 1 0 = .ok consoleStart ∧
    ((consoleStart.afterAll []).shutdown echoSurroundings).link = none ∧
    (((consoleStart.afterAll []).shutdown echoSurroundings).call echoSurroundings
      "9:START_RCON:main" 100).1 = .reply "[1]" ∧
    (((consoleStart.afterAll []).shutdown echoSurroundings).afterSequels
      [restart]).link.isSome = true ∧
    (((consoleStart.afterAll []).shutdown echoSurroundings).afterSequels
      [restart, .shutdown echoSurroundings]).link.isSome = true := by
  refine ⟨rfl, ?_, ?_, ?_, ?_⟩ <;> decide +kernel

/-- The same call under a lock that was set before the shutdown. -/
theorem link_after_shutdown_iff_restarted_when_locked :
    launch consoleStart.settings 1 0 = .ok consoleStart ∧
    (consoleStart.afterAll [.event (.call echoSurroundings "9:LOCK" 100)]).stopped = false ∧
    ∃ y, (consoleStart.afterAll [.event (.call echoSurroundings "9:LOCK" 100)]).shutdown
        echoSurroundings = y ∧ y.locked = true ∧
      (y.afterSequels [restart, .shutdown echoSurroundings, restart]).link = none := by
  have hlaunch : launch consoleStart.settings 1 0 = .ok consoleStart := rfl
  obtain ⟨-, -, -, -, hnone⟩ := link_after_shutdown_iff_restarted hlaunch
    [.event (.call echoSurroundings "9:LOCK" 100)] rfl rfl (w := echoSurroundings)
  have hlocked : ((consoleStart.afterAll [.event (.call echoSurroundings "9:LOCK" 100)]).shutdown
      echoSurroundings).locked = true := by
    decide +kernel
  exact ⟨hlaunch, rfl, _, rfl, hlocked, hnone hlocked _ (by simp [restart])⟩

end Exchange

end Switchboard
