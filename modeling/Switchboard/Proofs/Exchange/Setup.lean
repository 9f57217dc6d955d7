import Switchboard.Proofs.Admin.LinkSteps
import Switchboard.Proofs.Exchange.Commands
import Switchboard.Proofs.Exchange.Reservations

/-!
# Setup grows until it is locked

Handlers, database sessions and the link are set up by three commands and by engines from outside.
Nothing takes a binding back or puts another in its place, and the lock keeps the three commands
from adding one:

* **`SameSlot`**: the link is the same at two moments. Links go on by themselves, so the later one
  is the earlier one after some events of its own.
* **`Sets`**: what an occurrence does to the setup; a call adds one binding or none (`sets_after`).
* **`SetupKept`**: what is bound stays bound along a run, by one case for each way to set up
  (`setupKept_concat`).
* **`sameBindings_afterAll`**: once locked, host calls and workers change no binding.
* **`attempt_withLock`**: what is not an administrative command does not see the lock.
-/

namespace Switchboard

open Admin (Link)

/-! ## The slot of the link -/

/-- A link after some events of its own. -/
def Admin.Link.Later (l l' : Link) : Prop :=
  ∃ events, (l.run events).2 = l'

namespace Admin.Link

variable {l l' l'' : Link}

theorem later_refl (l : Link) : l.Later l :=
  ⟨[], rfl⟩

theorem Later.trans (h : l.Later l') (h' : l'.Later l'') : l.Later l'' := by
  obtain ⟨events, rfl⟩ := h
  obtain ⟨later, rfl⟩ := h'
  exact ⟨events ++ later, run_snd_append events later l⟩

theorem later_step (event : LinkEvent) (l : Link) : l.Later (l.step event).2 :=
  ⟨[event], rfl⟩

theorem later_enqueue (text : String) (l : Link) : l.Later (l.enqueue text) :=
  later_step (.enqueue text) l

end Admin.Link

/-- The slot is empty at both moments, or holds the same link. -/
def SameSlot : Option Link → Option Link → Prop :=
  Option.Rel Link.Later

namespace SameSlot

variable {a b c : Option Link}

theorem refl (a : Option Link) : SameSlot a a := by
  cases a with
  | none => exact .none
  | some l => exact .some l.later_refl

theorem trans (h : SameSlot a b) (h' : SameSlot b c) : SameSlot a c := by
  cases h with
  | none => exact h'
  | some h =>
    cases h' with
    | some h' => exact .some (h.trans h')

theorem map_step (event : Admin.LinkEvent) (a : Option Link) :
    SameSlot a (a.map fun l => (l.step event).2) := by
  cases a with
  | none => exact .none
  | some l => exact .some (l.later_step event)

theorem exists_later {l : Link} (h : SameSlot a b) (hl : a = some l) :
    ∃ l', b = some l' ∧ l.Later l' := by
  cases h with
  | none => cases hl
  | some h =>
    cases hl
    exact ⟨_, rfl, h⟩

end SameSlot

theorem Handler.sameSlot_of_execute {w : Surroundings} {request : String} {link link' : Option Link}
    {handler : Handler} {outcome : Outcome}
    (h : handler.execute w request link = (outcome, link')) : SameSlot link link' := by
  obtain rfl : (handler.execute w request link).2 = link' := congrArg Prod.snd h
  rcases handler.execute_link w request link with heq | ⟨l, -, rfl, heq⟩
  · rw [heq]
    exact SameSlot.refl link
  · rw [heq]
    exact .some (l.later_enqueue request)

/-! ## Tables that grow -/

/-- A binding under a free name leaves the others. -/
theorem getElem?_insert_of_free {α : Type} {t : Std.ExtTreeMap String α} {name name' : String}
    {a : α} (hfree : name ∉ t) (b : α) (h : t[name']? = some a) :
    (t.insert name b)[name']? = some a := by
  have hne : name ≠ name' := by
    rintro rfl
    rw [Std.ExtTreeMap.getElem?_eq_none hfree] at h
    cases h
  rw [Std.ExtTreeMap.getElem?_insert, if_neg fun h => hne (Std.LawfulEqOrd.compare_eq_iff_eq.1 h)]
  exact h

/-! ## What comes from outside -/

/-- Setup from outside, where the lock does not matter, and shutting down. -/
def Occurrence.isOutside : Occurrence → Bool
  | .change _ | .event (.addEngine _ _ _ _) | .event .stopLink => true
  | .event _ => false

/-- A handler after an occurrence: engines may come to answer in another way. -/
def Handler.after (name : String) (o : Occurrence) (handler : Handler) : Handler :=
  match o with
  | .change change => handler.changed (change name)
  | .event _ => handler

def Handler.afterAll (name : String) (os : List Occurrence) (handler : Handler) : Handler :=
  os.foldl (fun handler o => handler.after name o) handler

theorem Handler.afterAll_concat (name : String) (os : List Occurrence) (o : Occurrence)
    (handler : Handler) :
    handler.afterAll name (os ++ [o]) = (handler.afterAll name os).after name o :=
  List.foldl_append

namespace Command

/-- Running a handler is no administrative command. -/
theorem parseRun_ne_system (mode : Mode) (rest : String) (c : SystemCommand) :
    parseRun mode rest ≠ .ok (.system c) := by
  unfold parseRun
  split
  · split <;> nofun
  · nofun

/-- Administrative commands have a digit of their own. -/
theorem digit_of_parse_system {line : String} {c : SystemCommand}
    (h : parse line = .ok (.system c)) : line.toList.head? = some '9' := by
  unfold parse at h
  split at h
  · next digit c cs heq =>
    rw [heq]
    split at h
    · unfold parseRest at h
      split at h
      · exact absurd h (parseRun_ne_system _ _ _)
      · exact absurd h (parseRun_ne_system _ _ _)
      · exact absurd h (parseRun_ne_system _ _ _)
      · generalize parseId _ = id at h
        cases id <;> cases h
      · generalize parseId _ = id at h
        cases id <;> cases h
      · rfl
      · cases h
    · cases h
  · cases h

end Command

namespace Exchange

variable {x y z : Exchange} {w : Surroundings} {range : Interval} {o : Occurrence}

/-! ## What an occurrence does to the setup -/

/-- Nothing is bound, unbound or bound anew. -/
structure SameBindings (x y : Exchange) : Prop where
  settings : y.settings = x.settings
  databases : y.databases = x.databases
  registry : y.registry = x.registry
  slot : SameSlot x.link y.link

theorem sameBindings_refl (x : Exchange) : SameBindings x x :=
  ⟨rfl, rfl, rfl, .refl _⟩

theorem SameBindings.trans (h : SameBindings x y) (h' : SameBindings y z) : SameBindings x z :=
  ⟨h'.settings.trans h.settings, h'.databases.trans h.databases, h'.registry.trans h.registry,
    h.slot.trans h'.slot⟩

/-- A call sets something up: its line is one of the three commands, and it is answered that all
went well. -/
structure SetsUp (w : Surroundings) (x : Exchange) (line : String) (capacity : Nat)
    (command : SystemCommand) : Prop where
  parse_eq : Command.parse line = .ok (.system command)
  isSetup : command.isSetup = true
  reply_eq : (x.call w line capacity).1 = .reply Token.ok.render

/-- What an occurrence does to bindings and lock. -/
inductive Sets (x : Exchange) : Occurrence → Exchange → Prop where
  | kept {event : ExchangeEvent} {y : Exchange} (hsame : SameBindings x y)
      (hlock : y.locked = x.locked) : Sets x (.event event) y
  | locked {w : Surroundings} {line : String} {capacity : Nat}
      (hparse : Command.parse line = .ok (.system .lock)) :
      Sets x (.event (.call w line capacity)) { x with locked := true }
  | bound {w : Surroundings} {line : String} {capacity : Nat} {command : SystemCommand}
      {y : Exchange} (hsetsUp : SetsUp w x line capacity command) (hunlocked : x.locked = false)
      (hbinds : Binds w x command y) : Sets x (.event (.call w line capacity)) y
  | engine {name : String} {engine : Engine} {database : Option String} {args : String}
      {handler : Handler} (hfree : name ∉ x.registry) :
      Sets x (.event (.addEngine name engine database args))
        { x with registry := x.registry.insert name handler }
  | changed (change : EngineChange) : Sets x (.change change) (x.changed change)
  | gaveUp : Sets x (.event .stopLink) x.stopLink

theorem Binds.isSetup {command : SystemCommand} (h : Binds w x command y) :
    command.isSetup = true := by
  cases h <;> rfl

theorem sets_call (hsound : x.store.Sound range) (line : String) (capacity : Nat) :
    Sets x (.event (.call w line capacity)) (x.call w line capacity).2 := by
  have hcall := call_eq w line capacity x
  have hattempted := attempted_attempt w hsound line capacity
  -- of all that a call can be, only the lock command and a binding are no `kept`
  generalize x.attempt w line capacity = r at hcall hattempted
  obtain ⟨result, y⟩ := r
  rw [hcall]
  dsimp only at hattempted ⊢
  cases hattempted with
  | malformed hparse => exact .kept (sameBindings_refl x) rfl
  | carried hparse hcarried =>
    cases hcarried with
    | refused hrefusal => exact .kept (sameBindings_refl x) rfl
    | @unanswered _ payload l hhandler hlink hnone =>
      exact .kept ⟨rfl, rfl, rfl, hlink ▸ .some (l.later_enqueue payload)⟩ rfl
    | brokeOff hhandler hexec =>
      exact .kept ⟨rfl, rfl, rfl, Handler.sameSlot_of_execute hexec⟩ rfl
    | answered hhandler hexec =>
      exact .kept ⟨rfl, rfl, rfl, Handler.sameSlot_of_execute hexec⟩ rfl
    | posted hmode => exact .kept ⟨rfl, rfl, rfl, .refl _⟩ rfl
    | fetched hcommand => exact .kept ⟨rfl, rfl, rfl, .refl _⟩ rfl
    | told hplain => exact .kept (sameBindings_refl x) rfl
    | locked => exact .locked hparse
    | unnamed hunlocked hempty hentry hendpoint hname => exact .kept (sameBindings_refl x) rfl
    | bound hunlocked hbinds =>
      exact .bound ⟨hparse, hbinds.isSetup, congrArg Prod.fst hcall⟩ hunlocked hbinds

theorem sets_finish (w : Surroundings) (place : Nat) (x : Exchange) :
    Sets x (.event (.finish w place)) (x.after (.event (.finish w place))) := by
  show Sets x _ ((x.finishTask? w place).getD x)
  cases hfinish : x.pool.finish? place with
  | none =>
    rw [finishTask?, hfinish]
    exact .kept (sameBindings_refl x) rfl
  | some r =>
    obtain ⟨task, pool⟩ := r
    rw [finishTask?, hfinish, Option.map_some, Option.getD_some]
    have hslot : SameSlot x.link (task.handler.execute w task.request x.link).2 :=
      Handler.sameSlot_of_execute rfl
    unfold perform
    cases task.slot with
    | none => exact .kept ⟨rfl, rfl, rfl, hslot⟩ rfl
    | some id => exact .kept ⟨rfl, rfl, rfl, hslot⟩ rfl

theorem sets_addEngine (name : String) (engine : Engine) (database : Option String)
    (args : String) (x : Exchange) :
    Sets x (.event (.addEngine name engine database args))
      (x.addEngine name engine database args).2 := by
  unfold addEngine
  cases x.sessionOf database with
  | error fault => exact .kept (sameBindings_refl x) rfl
  | ok session =>
    dsimp only [registerOn]
    have hregistered :=
      registered_register x.link.isSome ⟨name, .engine engine, session, args⟩ x.registry
    generalize x.registry.register x.link.isSome ⟨name, .engine engine, session, args⟩ = r
      at hregistered ⊢
    obtain ⟨result, registry⟩ := r
    dsimp only at hregistered ⊢
    cases hregistered with
    | taken htaken => exact .kept (sameBindings_refl x) rfl
    | failed hinit => exact .kept (sameBindings_refl x) rfl
    | added hfree hinit => exact .engine hfree

/-- **What an occurrence does to the setup**, and nothing else is possible. -/
theorem sets_after (hsound : x.store.Sound range) (o : Occurrence) : Sets x o (x.after o) := by
  cases o with
  | change change => exact .changed change
  | event event =>
    cases event with
    | call w line capacity => exact sets_call hsound line capacity
    | start =>
      show Sets x _ (x.startTask?.getD x)
      unfold startTask?
      cases x.pool.start? with
      | none => exact .kept (sameBindings_refl x) rfl
      | some r => exact .kept ⟨rfl, rfl, rfl, .refl _⟩ rfl
    | finish w place => exact sets_finish w place x
    | submit id text => exact .kept ⟨rfl, rfl, rfl, .refl _⟩ rfl
    | enqueue text =>
      show Sets x _ (x.enqueue text).2
      rw [enqueue_snd]
      exact .kept ⟨rfl, rfl, rfl, .map_step (.enqueue text) _⟩ rfl
    | addEngine name engine database args => exact sets_addEngine name engine database args x
    | link event => exact .kept ⟨rfl, rfl, rfl, .map_step event _⟩ rfl
    | close => exact .kept ⟨rfl, rfl, rfl, .refl _⟩ rfl
    | stopLink =>
      show Sets x _ (if x.stopped && x.pool.isIdle then x.stopLink else x)
      split
      · exact .gaveUp
      · exact .kept (sameBindings_refl x) rfl

/-! ## Bindings that stay -/

/-- What is bound and locked at a moment is so after a run. -/
structure SetupKept (x : Exchange) (later : List Occurrence) : Prop where
  handler : ∀ (name : String) handler, x.registry[name]? = some handler →
    (x.afterAll later).registry[name]? = some (handler.afterAll name later)
  session : ∀ (id : String) session, x.databases[id]? = some session →
    (x.afterAll later).databases[id]? = some session
  /-- The link stays until the exchange is shut down. -/
  link : Occurrence.event .stopLink ∉ later → ∀ l, x.link = some l →
    ∃ l', (x.afterAll later).link = some l' ∧ l.Later l'
  locked : x.locked = true → (x.afterAll later).locked = true

theorem Binds.handler_kept {command : SystemCommand} (h : Binds w x command y) {name : String}
    {handler : Handler} (hbound : x.registry[name]? = some handler) :
    y.registry[name]? = some handler := by
  cases h with
  | link hempty hentry hendpoint => exact hbound
  | session hfree hentry => exact hbound
  | handler hfree hsession hkind hinit => exact getElem?_insert_of_free hfree _ hbound

theorem Binds.session_kept {command : SystemCommand} (h : Binds w x command y) {id : String}
    {session : DatabaseSession} (hbound : x.databases[id]? = some session) :
    y.databases[id]? = some session := by
  cases h with
  | link hempty hentry hendpoint => exact hbound
  | session hfree hentry => exact getElem?_insert_of_free hfree _ hbound
  | handler hfree hsession hkind hinit => exact hbound

/-- A link is started only where there is none. -/
theorem Binds.link_kept {command : SystemCommand} (h : Binds w x command y) {l : Link}
    (hl : x.link = some l) : y.link = some l := by
  cases h with
  | link hempty hentry hendpoint =>
    rw [hl] at hempty
    cases hempty
  | session hfree hentry => exact hl
  | handler hfree hsession hkind hinit => exact hl

theorem Sets.handler_kept (h : Sets x o y) {name : String} {handler : Handler}
    (hbound : x.registry[name]? = some handler) :
    y.registry[name]? = some (handler.after name o) := by
  cases h with
  | kept hsame hlock =>
    rw [hsame.registry]
    exact hbound
  | locked hparse => exact hbound
  | bound hsetsUp hunlocked hbinds => exact hbinds.handler_kept hbound
  | engine hfree => exact getElem?_insert_of_free hfree _ hbound
  | changed change =>
    show (x.registry.map fun name handler => handler.changed (change name))[name]? = _
    rw [Std.ExtTreeMap.getElem?_map, hbound]
    rfl
  | gaveUp => exact hbound

theorem Sets.session_kept (h : Sets x o y) {id : String} {session : DatabaseSession}
    (hbound : x.databases[id]? = some session) : y.databases[id]? = some session := by
  cases h with
  | kept hsame hlock =>
    rw [hsame.databases]
    exact hbound
  | locked hparse => exact hbound
  | bound hsetsUp hunlocked hbinds => exact hbinds.session_kept hbound
  | engine hfree => exact hbound
  | changed change => exact hbound
  | gaveUp => exact hbound

theorem Sets.link_kept (h : Sets x o y) (hstays : o ≠ .event .stopLink) {l : Link}
    (hl : x.link = some l) : ∃ l', y.link = some l' ∧ l.Later l' := by
  cases h with
  | kept hsame hlock => exact hsame.slot.exists_later hl
  | locked hparse => exact ⟨l, hl, l.later_refl⟩
  | bound hsetsUp hunlocked hbinds => exact ⟨l, hbinds.link_kept hl, l.later_refl⟩
  | engine hfree => exact ⟨l, hl, l.later_refl⟩
  | changed change => exact ⟨l, hl, l.later_refl⟩
  | gaveUp => exact absurd rfl hstays

/-- Nothing clears the lock. -/
theorem Sets.locked_kept (h : Sets x o y) (hlocked : x.locked = true) : y.locked = true := by
  cases h with
  | kept hsame hlock => exact hlock.trans hlocked
  | locked hparse => rfl
  | bound hsetsUp hunlocked hbinds =>
    rw [hunlocked] at hlocked
    cases hlocked
  | engine hfree => exact hlocked
  | changed change => exact hlocked
  | gaveUp => exact hlocked

/-- **One step.** What was kept up to now is kept by what happens next. -/
theorem setupKept_concat {later : List Occurrence} (h : SetupKept x later)
    (hsets : Sets (x.afterAll later) o ((x.afterAll later).after o)) :
    SetupKept x (later ++ [o]) where
  handler name handler hbound := by
    rw [afterAll_concat, Handler.afterAll_concat]
    exact hsets.handler_kept (h.handler name handler hbound)
  session id session hbound := by
    rw [afterAll_concat]
    exact hsets.session_kept (h.session id session hbound)
  link hstays l hl := by
    rw [List.mem_append, List.mem_singleton, not_or] at hstays
    obtain ⟨l', hl', hlater⟩ := h.link hstays.1 l hl
    obtain ⟨l'', hl'', hlater'⟩ := hsets.link_kept (Ne.symm hstays.2) hl'
    rw [afterAll_concat]
    exact ⟨l'', hl'', hlater.trans hlater'⟩
  locked hlocked := by
    rw [afterAll_concat]
    exact hsets.locked_kept (h.locked hlocked)

/-- **Bindings stay along every run.** -/
theorem setupKept (hsound : x.store.Sound range) (later : List Occurrence) :
    SetupKept x later := by
  induction later using List.reverseRecOn with
  | nil =>
    exact ⟨fun _ _ hbound => hbound, fun _ _ hbound => hbound,
      fun _ l hl => ⟨l, hl, l.later_refl⟩, fun hlocked => hlocked⟩
  | append_singleton later o ih =>
    exact setupKept_concat ih (sets_after (sound_afterAll hsound later) o)

/-! ## Sessions and their sections -/

/-- Every session has the id that it is bound to and the section that it names. -/
structure Configured (s : Settings) (x : Exchange) : Prop where
  settings : x.settings = s
  section_eq : ∀ (id : String) session, x.databases[id]? = some session →
    session.id = id ∧ s.databases[session.configName]? = some session.config

theorem configured_launch {s : Settings} {processors : Nat} {draw : UInt64}
    (h : launch s processors draw = .ok x) : Configured s x := by
  obtain ⟨ids, pool, -, -, rfl⟩ := eq_of_launch h
  refine ⟨rfl, fun id session hbound => ?_⟩
  rw [Std.ExtTreeMap.getElem?_empty] at hbound
  cases hbound

theorem Configured.of_binds {s : Settings} {command : SystemCommand} (h : Configured s x)
    (hbinds : Binds w x command y) : Configured s y := by
  cases hbinds with
  | link hempty hentry hendpoint => exact ⟨h.settings, h.section_eq⟩
  | handler hfree hsession hkind hinit => exact ⟨h.settings, h.section_eq⟩
  | @session config id entry hfree hentry =>
    refine ⟨h.settings, fun id' session hbound => ?_⟩
    by_cases heq : id = id'
    · subst heq
      rw [Std.ExtTreeMap.getElem?_insert_self] at hbound
      cases hbound
      exact ⟨rfl, h.settings ▸ hentry⟩
    · rw [Std.ExtTreeMap.getElem?_insert,
        if_neg fun h => heq (Std.LawfulEqOrd.compare_eq_iff_eq.1 h)] at hbound
      exact h.section_eq id' session hbound

theorem Configured.of_sets {s : Settings} (h : Configured s x) (hsets : Sets x o y) :
    Configured s y := by
  cases hsets with
  | kept hsame hlock =>
    refine ⟨hsame.settings.trans h.settings, ?_⟩
    rw [hsame.databases]
    exact h.section_eq
  | locked hparse => exact ⟨h.settings, h.section_eq⟩
  | bound hsetsUp hunlocked hbinds => exact h.of_binds hbinds
  | engine hfree => exact ⟨h.settings, h.section_eq⟩
  | changed change => exact ⟨h.settings, h.section_eq⟩
  | gaveUp => exact ⟨h.settings, h.section_eq⟩

theorem Configured.afterAll {s : Settings} (h : Configured s x) (hsound : x.store.Sound range)
    (os : List Occurrence) : Configured s (x.afterAll os) := by
  induction os generalizing x with
  | nil => exact h
  | cons o os ih => exact ih (h.of_sets (sets_after hsound o)) (sound_after hsound o)

/-! ## Once locked -/

theorem Sets.sameBindings (h : Sets x o y) (hlocked : x.locked = true)
    (hinside : o.isOutside = false) : SameBindings x y := by
  cases h with
  | kept hsame hlock => exact hsame
  | locked hparse => exact ⟨rfl, rfl, rfl, .refl _⟩
  | bound hsetsUp hunlocked hbinds =>
    rw [hunlocked] at hlocked
    cases hlocked
  | engine hfree => cases hinside
  | changed change => cases hinside
  | gaveUp => cases hinside

/-- **Once locked, host calls and workers change no binding.** -/
theorem sameBindings_afterAll (hsound : x.store.Sound range) (hlocked : x.locked = true)
    {later : List Occurrence} (hinside : ∀ o ∈ later, o.isOutside = false) :
    SameBindings x (x.afterAll later) := by
  induction later generalizing x with
  | nil => exact sameBindings_refl x
  | cons o later ih =>
    obtain ⟨hhere, hlater⟩ := List.forall_mem_cons.1 hinside
    have hsets := sets_after hsound o
    exact (hsets.sameBindings hlocked hhere).trans
      (ih (sound_after hsound o) (hsets.locked_kept hlocked) hlater)

/-- The exchange with the lock set or not. -/
def withLock (locked : Bool) (x : Exchange) : Exchange :=
  { x with locked }

@[simp] theorem withLock_store (b : Bool) (x : Exchange) : (x.withLock b).store = x.store :=
  rfl

@[simp] theorem withLock_registry (b : Bool) (x : Exchange) :
    (x.withLock b).registry = x.registry :=
  rfl

@[simp] theorem withLock_link (b : Bool) (x : Exchange) : (x.withLock b).link = x.link :=
  rfl

@[simp] theorem withLock_pool (b : Bool) (x : Exchange) : (x.withLock b).pool = x.pool :=
  rfl

section WithLock

variable (b : Bool) (w : Surroundings) (protocol payload : String) (capacity : Nat) (x : Exchange)

theorem runInline_withLock :
    (x.withLock b).runInline w protocol payload capacity =
      (x.runInline w protocol payload capacity).map id (withLock b) := by
  unfold runInline dispatch
  rw [withLock_registry]
  cases x.registry[protocol]? with
  | none => rfl
  | some handler =>
    rw [withLock_link]
    dsimp only
    generalize handler.execute w payload x.link = r
    obtain ⟨outcome, link⟩ := r
    cases outcome with
    | panic => rfl
    | reply text =>
      dsimp only
      split
      · rfl
      · rw [withLock_store]
        split <;> rfl

theorem runBackground_withLock :
    (x.withLock b).runBackground protocol payload =
      (x.runBackground protocol payload).map id (withLock b) := by
  unfold runBackground handlerOf
  rw [withLock_registry]
  cases x.registry[protocol]? with
  | none => rfl
  | some handler =>
    rw [withLock_pool]
    dsimp only
    split <;> rfl

theorem runKept_withLock :
    (x.withLock b).runKept protocol payload =
      (x.runKept protocol payload).map id (withLock b) := by
  unfold runKept handlerOf
  rw [withLock_registry]
  cases x.registry[protocol]? with
  | none => rfl
  | some handler =>
    rw [withLock_store, withLock_pool]
    dsimp only
    split
    · rfl
    · split <;> rfl

end WithLock

/-- **What is not an administrative command does not see the lock.** -/
theorem attempt_withLock {line : String} (hline : ∀ c, Command.parse line ≠ .ok (.system c))
    (b : Bool) (w : Surroundings) (capacity : Nat) (x : Exchange) :
    (x.withLock b).attempt w line capacity =
      (x.attempt w line capacity).map id (withLock b) := by
  unfold attempt
  cases hparse : Command.parse line with
  | error fault => rfl
  | ok command =>
    cases command with
    | run mode protocol payload =>
      cases mode with
      | inline => exact runInline_withLock b w protocol payload capacity x
      | background => exact runBackground_withLock b protocol payload x
      | kept => exact runKept_withLock b protocol payload x
    | take id => rfl
    | takeChunk id => rfl
    | system command => exact absurd hparse (hline command)

/-! ## The theorem -/

/-- A call that sets something up adds its binding. -/
theorem SetsUp.binds {line : String} {capacity : Nat} {command : SystemCommand}
    (h : SetsUp w x line capacity command) (hsound : x.store.Sound range) :
    Binds w x command (x.call w line capacity).2 := by
  have hattempted := attempted_attempt w hsound line capacity
  have hreply := h.reply_eq
  rw [call_eq] at hreply ⊢
  generalize x.attempt w line capacity = r at hattempted hreply ⊢
  obtain ⟨result, y⟩ := r
  dsimp only at hattempted hreply ⊢
  cases hattempted with
  | malformed hparse => cases h.parse_eq.symm.trans hparse
  | carried hparse hcarried =>
    cases h.parse_eq.symm.trans hparse
    cases hcarried with
    | refused hrefusal => exact absurd (Outcome.reply.inj hreply) (Token.render_error_ne_ok _)
    | fetched hcommand => rcases hcommand with hcommand | hcommand <;> cases hcommand
    | told hplain =>
      rw [h.isSetup] at hplain
      cases hplain
    | locked => cases h.isSetup
    | unnamed hunlocked hempty hentry hendpoint hname => cases hreply
    | bound hunlocked hbinds => exact hbinds

/-- A call that sets nothing up adds no binding. -/
theorem sameBindings_call {line : String} {capacity : Nat} (hsound : x.store.Sound range)
    (hnone : ∀ command, ¬ SetsUp w x line capacity command) :
    SameBindings x (x.call w line capacity).2 := by
  have hsets := sets_call (w := w) hsound line capacity
  generalize (x.call w line capacity).2 = y at hsets ⊢
  cases hsets with
  | kept hsame hlock => exact hsame
  | locked hparse => exact ⟨rfl, rfl, rfl, .refl _⟩
  | bound hsetsUp hunlocked hbinds => exact absurd hsetsUp (hnone _)

/-- The lock command sets the lock. -/
theorem locked_call {line : String} (hparse : Command.parse line = .ok (.system .lock))
    (capacity : Nat) : (x.call w line capacity).2.locked = true := by
  simp only [call, attempt, hparse, execute, runSystem, SystemCommand.isSetup, Bool.false_and,
    Bool.false_eq_true, ↓reduceIte]

/-- **Setup only grows, and the lock freezes it.** Take any moment after an exchange was opened,
with host calls, workers, engines from outside and shutting down in any order before it. Whatever
happens later, a handler, a session and, until the shutdown, the link stay what they are once they
are bound; a session has the id it is bound to and the section of the settings that it names. A call
that answers one of the three setup commands with `[1]` adds exactly the binding it asks for, and
any other call adds none. The lock command sets the lock, and nothing clears it. Under the lock no
calls, with workers and the link going on in between, change a binding, and a line whose digit is
not that of the administrative commands is answered as without the lock and does the same. -/
theorem setup_grows_until_locked {s : Settings} {processors : Nat} {draw : UInt64}
    (hlaunch : launch s processors draw = .ok x) (os : List Occurrence) :
    (∀ later, SetupKept (x.afterAll os) later) ∧
    Configured s (x.afterAll os) ∧
    (∀ w line capacity,
      (∀ command, SetsUp w (x.afterAll os) line capacity command →
        Binds w (x.afterAll os) command ((x.afterAll os).call w line capacity).2) ∧
      ((∀ command, ¬ SetsUp w (x.afterAll os) line capacity command) →
        SameBindings (x.afterAll os) ((x.afterAll os).call w line capacity).2)) ∧
    (∀ w line capacity, Command.parse line = .ok (.system .lock) →
      ((x.afterAll os).call w line capacity).2.locked = true) ∧
    ((x.afterAll os).locked = true →
      (∀ later, (∀ o ∈ later, o.isOutside = false) →
        SameBindings (x.afterAll os) ((x.afterAll os).afterAll later)) ∧
      ∀ w line capacity, line.toList.head? ≠ some '9' →
        ((x.afterAll os).withLock false).call w line capacity =
          (((x.afterAll os).call w line capacity).1,
            ((x.afterAll os).call w line capacity).2.withLock false)) := by
  obtain ⟨range, hstart, -⟩ := consistent_launch hlaunch
  have hsound := sound_afterAll hstart.sound os
  have hconfigured := (configured_launch hlaunch).afterAll hstart.sound os
  refine ⟨setupKept hsound, hconfigured, fun w line capacity => ?_,
    fun w line capacity hparse => ?_,
    fun hlocked => ⟨fun later hinside => ?_, fun w line capacity hdigit => ?_⟩⟩
  · exact ⟨fun command h => h.binds hsound, sameBindings_call hsound⟩
  · exact locked_call hparse capacity
  · exact sameBindings_afterAll hsound hlocked hinside
  · have hline (c : SystemCommand) : Command.parse line ≠ .ok (.system c) := fun hparse =>
      hdigit (Command.digit_of_parse_system hparse)
    rw [call_eq, call_eq, attempt_withLock hline]
    rfl

/-! A handler that is registered before the lock. -/

def lockedSetup : List Occurrence :=
  [.event (.call echoSurroundings "9:ADD::MISC:m" 100),
    .event (.call echoSurroundings "9:LOCK" 100)]

/-- The handler stays, and under the lock a second one is refused. -/
theorem setup_grows_until_locked_of_misc :
    launch { testMode := true } 1 0 = .ok echoStart ∧
    "m" ∈ (echoStart.afterAll lockedSetup).registry ∧
    (echoStart.afterAll lockedSetup).locked = true ∧
    (∀ later, SetupKept (echoStart.afterAll lockedSetup) later) ∧
    SameBindings (echoStart.afterAll lockedSetup)
      ((echoStart.afterAll lockedSetup).call echoSurroundings "9:ADD::MISC:n" 100).2 ∧
    ((echoStart.afterAll lockedSetup).call echoSurroundings "9:ADD::MISC:n" 100).1 =
      .reply "[0,\"Locked\"]" := by
  have hlaunch : launch { testMode := true } 1 0 = .ok echoStart := rfl
  have hlocked : (echoStart.afterAll lockedSetup).locked = true := by decide +kernel
  obtain ⟨hkept, -, -, -, hfrozen⟩ := setup_grows_until_locked hlaunch lockedSetup
  refine ⟨hlaunch, by decide +kernel, hlocked, hkept, ?_, by decide +kernel⟩
  refine (hfrozen hlocked).1 [.event (.call echoSurroundings "9:ADD::MISC:n" 100)] fun o ho => ?_
  cases List.mem_singleton.1 ho
  rfl

end Exchange

end Switchboard
