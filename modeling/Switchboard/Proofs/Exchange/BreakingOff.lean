import Switchboard.Proofs.Exchange.Setup
import Switchboard.Proofs.Text.Boundaries

/-!
# Calls that break off

A call that breaks off takes the host down with it: a handler that is run at once runs on the thread
of the host, and nothing there catches it. With handlers of the built-in kinds two calls do so, and
no others (`BreaksOff`):

* the time of day is asked for with the least signed word as the shift, whose absolute value is no
  signed word (`Misc.execute_eq_panic_iff`);
* a link is started for a section whose name holds a NUL, which no thread's name can.

Everything else on the way goes through: lines are indexed and cut where they can be, so are stored
texts, and the words of the free ids do not wrap.
-/

namespace Switchboard

open Text
open Admin (Endpoint)

/-! ## The utilities -/

namespace Misc

/-- The time is asked for, shifted by the least signed word. -/
def LeastShift (request : String) : Prop :=
  ∃ args, cut? ':' request = some ("TIME", args) ∧
    signedWord? (trim args) = some (-(signedBound : Int))

theorem time_eq_panic_iff (clock : Clock) (shift : Option String) :
    time clock shift = .panic ↔
      ∃ args, shift = some args ∧ signedWord? (trim args) = some (-(signedBound : Int)) := by
  unfold time
  cases shift with
  | none => simp
  | some args =>
    simp only [Option.map_some, Option.some.injEq, exists_eq_left']
    by_cases hempty : trim args = ""
    · -- without digits there is no number
      have hnone : signedWord? "" = none := by decide +kernel
      simp [hempty, hnone]
    · rw [if_neg hempty]
      cases hhours : signedWord? (trim args) with
      | none => simp [refuse]
      | some hours =>
        simp only [Option.some.injEq]
        split
        · next hleast => simp [hleast]
        · next hleast =>
          split <;> simp [hleast, refuse]

theorem randomWords_ne_panic (draw : (length : Nat) → List (Word length)) (args : String) :
    randomWords draw args ≠ .panic := by
  unfold randomWords
  split <;> nofun

/-- **The utilities break off on the least shift**, and on nothing else. -/
theorem execute_eq_panic_iff (w : Surroundings) (request : String) :
    execute w request = .panic ↔ LeastShift request := by
  unfold execute LeastShift
  cases cut? ':' request with
  | none =>
    have htime : time w.clock none ≠ .panic := fun h => by
      obtain ⟨args, hargs, -⟩ := (time_eq_panic_iff _ _).1 h
      cases hargs
    simp only [reduceCtorEq, false_and, exists_false, iff_false]
    split
    · exact htime
    · split <;> nofun
  | some p =>
    obtain ⟨name, args⟩ := p
    by_cases hname : name = "TIME"
    · subst hname
      simp [time_eq_panic_iff]
    · simp only [Option.some.injEq, Prod.mk.injEq, hname, false_and, exists_false, iff_false,
        ↓reduceIte]
      split
      · nofun
      · split
        · exact randomWords_ne_panic _ _
        · split <;> nofun

end Misc

namespace Exchange

variable {x y : Exchange} {w : Surroundings} {range : Interval} {line : String}

/-! ## Calls -/

/-- All handlers are of the built-in kinds. -/
def BuiltIn (x : Exchange) : Prop :=
  ∀ (name : String) handler, x.registry[name]? = some handler →
    handler = .misc ∨ handler = .relay

/-- The calls that break off. -/
inductive BreaksOff (w : Surroundings) (x : Exchange) (line : String) : Prop where
  | shifted {protocol payload : String}
      (hparse : Command.parse line = .ok (.run .inline protocol payload))
      (hhandler : x.registry[protocol]? = some .misc) (hshift : Misc.LeastShift payload)
  | unnamed {config : String} {entry : ConsoleSection} {endpoint : Endpoint}
      (hparse : Command.parse line = .ok (.system (.startConsole config)))
      (hunlocked : x.locked = false) (hempty : x.link = none)
      (hentry : x.settings.consoles[config]? = some entry)
      (hendpoint : Endpoint.ofSection w.lookup entry = .ok endpoint)
      (hname : '\x00' ∈ config.toList)

theorem Attempted.breaksOff (h : Attempted w x line (.ok .panic) y) (hbuiltIn : BuiltIn x) :
    BreaksOff w x line := by
  cases h with
  | carried hparse hcarried =>
    cases hcarried with
    | @brokeOff protocol payload handler link hhandler hexec =>
      rcases hbuiltIn protocol handler hhandler with rfl | rfl
      · have hpanic : Misc.execute w payload = .panic := congrArg Prod.fst hexec
        exact .shifted hparse hhandler ((Misc.execute_eq_panic_iff w payload).1 hpanic)
      · -- a relay replies, with a link and without
        cases hlink : x.link <;> rw [hlink] at hexec <;> cases hexec
    | unnamed hunlocked hempty hentry hendpoint hname =>
      exact .unnamed hparse hunlocked hempty hentry hendpoint hname

theorem BreaksOff.attempt_fst (h : BreaksOff w x line) (capacity : Nat) :
    (x.attempt w line capacity).1 = .ok .panic := by
  cases h with
  | shifted hparse hhandler hshift =>
    have hpanic := (Misc.execute_eq_panic_iff w _).2 hshift
    simp only [attempt, hparse, execute, runInline, dispatch, hhandler, Handler.execute, hpanic]
  | unnamed hparse hunlocked hempty hentry hendpoint hname =>
    simp only [attempt, hparse, execute, runSystem_startConsole hunlocked, startLink, hempty,
      Option.isSome_none, Bool.false_eq_true, ↓reduceIte, hentry, hendpoint,
      Admin.Link.start?, hname]

/-- **What breaks off, and what goes through.** Take any moment after an exchange was opened, at
which all handlers are of the built-in kinds, any line and any buffer. The call breaks off if it
asks for the time of day with the least shift, or starts a link for a section whose name holds a
NUL, and otherwise it replies. The bytes of the line are indexed and cut where they can be, a stored
text is cut at the boundary of a character, and no word of the free ids wraps. -/
theorem call_breaks_off_iff {s : Settings} {processors : Nat} {draw : UInt64}
    (hlaunch : launch s processors draw = .ok x) (os : List Occurrence)
    (hbuiltIn : BuiltIn (x.afterAll os)) (w : Surroundings) (line : String) (capacity : Nat) :
    (((x.afterAll os).call w line capacity).1 = .panic ↔ BreaksOff w (x.afterAll os) line) ∧
    Command.parseBytes? line = some (Command.parse line) ∧
    (∀ (id : RequestId) text, (x.afterAll os).store.entries[id]? = some (.ready text) →
      cutAt? (chunkBoundary capacity text.toList) text.toList =
        some (splitPiece capacity text.toList)) ∧
    (x.afterAll os).store.ids.Exact := by
  obtain ⟨range, hstart, -⟩ := consistent_launch hlaunch
  have hsound := sound_afterAll hstart.sound os
  refine ⟨?_, Command.parseBytes?_eq line,
    fun _ text _ => cutAt?_chunkBoundary capacity text.toList, hsound.wellFormed.exact⟩
  have hattempted := attempted_attempt w hsound line capacity
  rw [call_eq]
  constructor
  · intro hpanic
    generalize (x.afterAll os).attempt w line capacity = r at hattempted hpanic
    obtain ⟨result, y⟩ := r
    cases result with
    | error fault => cases hpanic
    | ok outcome =>
      cases hpanic
      exact hattempted.breaksOff hbuiltIn
  · intro hbreaks
    rw [hbreaks.attempt_fst]
    rfl

/-! The two calls. -/

/-- The utilities are registered. -/
def utilitiesSetup : List Occurrence :=
  [.event (.call echoSurroundings "9:ADD::MISC:m" 100)]

theorem builtIn_utilitiesSetup : BuiltIn (echoStart.afterAll utilitiesSetup) := by
  intro name handler hbound
  have hregistry : (echoStart.afterAll utilitiesSetup).registry =
      (∅ : Registry).insert "m" .misc := rfl
  rw [hregistry, Std.ExtTreeMap.getElem?_insert] at hbound
  split at hbound
  · cases hbound
    exact Or.inl rfl
  · rw [Std.ExtTreeMap.getElem?_empty] at hbound
    cases hbound

/-- A shift by the least signed word is answered by no reply, although any other shift by more than
a day is refused. -/
theorem call_breaks_off_on_least_shift :
    launch { testMode := true } 1 0 = .ok echoStart ∧
    BuiltIn (echoStart.afterAll utilitiesSetup) ∧
    ((echoStart.afterAll utilitiesSetup).call echoSurroundings "0:m:TIME:-9223372036854775808"
      100).1 = .panic ∧
    ((echoStart.afterAll utilitiesSetup).call echoSurroundings "0:m:TIME:-9223372036854775807"
      100).1 = .reply "[0,\"Invalid Offset\"]" :=
  ⟨rfl, builtIn_utilitiesSetup, by decide +kernel, by decide +kernel⟩

/-- The settings have a console whose name ends in a NUL. -/
def namelessStart : Exchange :=
  { echoStart with
    settings := {
      testMode := true
      consoles := (∅ : Std.ExtTreeMap _ _).insert "a\x00" ({} : ConsoleSection) } }

theorem call_breaks_off_without_name :
    launch namelessStart.settings 1 0 = .ok namelessStart ∧ BuiltIn namelessStart ∧
    (namelessStart.call echoSurroundings "9:START_RCON:a\x00" 100).1 = .panic := by
  have hlaunch : launch namelessStart.settings 1 0 = .ok namelessStart := rfl
  have hbuiltIn : BuiltIn (namelessStart.afterAll []) := by
    intro name handler hbound
    rw [show (namelessStart.afterAll []).registry = ∅ from rfl, Std.ExtTreeMap.getElem?_empty]
      at hbound
    cases hbound
  have hbreaks : BreaksOff echoSurroundings (namelessStart.afterAll []) "9:START_RCON:a\x00" :=
    .unnamed (by decide +kernel) rfl rfl Std.ExtTreeMap.getElem?_insert_self rfl (by decide +kernel)
  exact ⟨hlaunch, hbuiltIn,
    (call_breaks_off_iff hlaunch [] hbuiltIn echoSurroundings _ 100).1.2 hbreaks⟩

end Exchange

end Switchboard
