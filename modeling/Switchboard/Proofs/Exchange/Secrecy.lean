import Switchboard.Proofs.Exchange.BreakingOff

/-!
# Passwords stay inside

A password is in a section of the settings, in every session that is bound to the section, and in
the link that was started for it. None of these is what a reply is made of, which takes two runs to
say: two exchanges whose settings differ in passwords, and the same host at both.

* **`withoutPasswords`**: settings and sessions with every password blank. What is wrong with
  settings, and where an endpoint is, does not depend on passwords (`invalidity?_withoutPasswords`,
  `Admin.Endpoint.ofSection_withoutPassword`).
* **`Indistinct`**: two exchanges that a host cannot tell apart: they differ in passwords and in
  what the links are up to, and in nothing else. Of the link only its presence counts, so a console
  that answers one of the two and refuses the other changes nothing (`indistinct_link`).
* **`Alike`**: two results are the same, and the exchanges after them cannot be told apart. There is
  one lemma for each function that a call goes through, up to **`Indistinct.step`**.
* **`Indistinct.run`**: whole runs, with the events of the links left out.
-/

namespace Switchboard

open Admin (Link Endpoint)

/-! ## Blank passwords -/

/-- Two tables that become the same when their values are changed have the same names, with values
that become the same. -/
theorem getElem?_of_map_eq {α β : Type} {f : String → α → β} {t t' : Std.ExtTreeMap String α}
    (h : t.map f = t'.map f) (name : String) :
    t[name]? = none ∧ t'[name]? = none ∨
      ∃ a a', t[name]? = some a ∧ t'[name]? = some a' ∧ f name a = f name a' := by
  have hmap : t[name]?.map (f name) = t'[name]?.map (f name) := by
    rw [← Std.ExtTreeMap.getElem?_map, h, Std.ExtTreeMap.getElem?_map]
  cases ht : t[name]? with
  | none =>
    rw [ht, Option.map_none] at hmap
    exact Or.inl ⟨rfl, Option.map_eq_none_iff.1 hmap.symm⟩
  | some a =>
    rw [ht, Option.map_some] at hmap
    obtain ⟨a', ht', heq⟩ := Option.map_eq_some_iff.1 hmap.symm
    exact Or.inr ⟨a, a', rfl, ht', heq.symm⟩

/-- Two results that become the same fail alike, or have values that become the same. -/
theorem Except.of_map_eq {ε α β : Type} {f : α → β} {r r' : Except ε α}
    (h : r.map f = r'.map f) :
    (∃ fault, r = .error fault ∧ r' = .error fault) ∨
      ∃ a a', r = .ok a ∧ r' = .ok a' ∧ f a = f a' := by
  cases r with
  | error fault =>
    cases r' with
    | error fault' =>
      cases h
      exact Or.inl ⟨fault, rfl, rfl⟩
    | ok a' => cases h
  | ok a =>
    cases r' with
    | error fault' => cases h
    | ok a' => exact Or.inr ⟨a, a', rfl, rfl, Except.ok.inj h⟩

theorem map_insert {α β : Type} (f : String → α → β) (t : Std.ExtTreeMap String α) (name : String)
    (a : α) : (t.insert name a).map f = (t.map f).insert name (f name a) := by
  refine Std.ExtTreeMap.ext_getElem? fun k => ?_
  rw [Std.ExtTreeMap.getElem?_map, Std.ExtTreeMap.getElem?_insert, Std.ExtTreeMap.getElem?_insert,
    Std.ExtTreeMap.getElem?_map]
  split
  · next hk =>
    obtain rfl := Std.LawfulEqOrd.compare_eq_iff_eq.1 hk
    rfl
  · rfl

def ConsoleSection.withoutPassword (c : ConsoleSection) : ConsoleSection :=
  { c with password := "" }

def DatabaseSection.withoutPassword (d : DatabaseSection) : DatabaseSection :=
  { d with password := "" }

def DatabaseSession.withoutPassword (d : DatabaseSession) : DatabaseSession :=
  { d with config := d.config.withoutPassword }

theorem DatabaseSession.displayUrl_withoutPassword (d : DatabaseSession) :
    d.withoutPassword.displayUrl = d.displayUrl :=
  rfl

def DatabaseSessions.withoutPasswords (sessions : DatabaseSessions) : DatabaseSessions :=
  sessions.map fun _ d => d.withoutPassword

theorem DatabaseSessions.withoutPasswords_insert (sessions : DatabaseSessions) (id : String)
    (d : DatabaseSession) :
    withoutPasswords (sessions.insert id d) =
      (withoutPasswords sessions).insert id d.withoutPassword :=
  map_insert _ sessions id d

def Admin.Endpoint.withoutPassword (e : Endpoint) : Endpoint :=
  { e with password := "" }

namespace Settings

variable {s s' : Settings}

def withoutPasswords (s : Settings) : Settings :=
  { s with
    consoles := s.consoles.map fun _ c => c.withoutPassword
    databases := s.databases.map fun _ d => d.withoutPassword }

theorem invalidity?_withoutPasswords (s : Settings) :
    s.withoutPasswords.invalidity? = s.invalidity? := by
  have hconsoles : (s.consoles.map fun _ c => c.withoutPassword).toList.findSome?
      (fun p => sectionInvalidity? p.1 p.2) =
      s.consoles.toList.findSome? fun p => sectionInvalidity? p.1 p.2 := by
    rw [Std.ExtTreeMap.toList_map, List.findSome?_map]
    rfl
  simp only [invalidity?, withoutPasswords, hconsoles]

end Settings

/-- A console is found without its password, and so is the fault when it is not. -/
theorem Admin.Endpoint.ofSection_withoutPassword (lookup : String → Option Ip)
    (c : ConsoleSection) :
    Endpoint.ofSection lookup c.withoutPassword =
      (Endpoint.ofSection lookup c).map Endpoint.withoutPassword := by
  unfold Endpoint.ofSection
  dsimp only [ConsoleSection.withoutPassword]
  cases (Ip.ofLiteral? c.address).or (lookup c.address) with
  | none => rfl
  | some ip => rfl

/-- What a handler answers depends on whether there is a link, and on nothing else about it. -/
theorem Handler.execute_of_isSome_eq {link link' : Option Link} (h : link.isSome = link'.isSome)
    (w : Surroundings) (request : String) (handler : Handler) :
    (handler.execute w request link).1 = (handler.execute w request link').1 ∧
      (handler.execute w request link).2.isSome = (handler.execute w request link').2.isSome := by
  cases handler with
  | misc => exact ⟨rfl, h⟩
  | engine answer => exact ⟨rfl, h⟩
  | relay =>
    cases link with
    | none =>
      cases link' with
      | none => exact ⟨rfl, rfl⟩
      | some l' => cases h
    | some l =>
      cases link' with
      | none => cases h
      | some l' => exact ⟨rfl, rfl⟩

/-- Handlers of the built-in kinds do not look at the session that they are registered on. -/
theorem Registry.register_builtin (linked : Bool) (name : String) (kind : HandlerKind)
    (database database' : Option DatabaseSession) (args : String) (r : Registry) :
    r.register linked ⟨name, .builtin kind, database, args⟩ =
      r.register linked ⟨name, .builtin kind, database', args⟩ := by
  have hinit : (Candidate.builtin kind).init? linked database args =
      (Candidate.builtin kind).init? linked database' args := by
    cases kind <;> rfl
  simp only [Registry.register, Registration.step]
  cases r.contains name with
  | true => rfl
  | false =>
    simp only [Bool.false_eq_true, ↓reduceIte, hinit]

namespace ExchangeEvent

def isLink : ExchangeEvent → Bool
  | link _ => true
  | _ => false

def isEngine : ExchangeEvent → Bool
  | addEngine _ _ _ _ => true
  | _ => false

end ExchangeEvent

namespace Exchange

variable {x y z : Exchange} {w : Surroundings}

/-! ## Exchanges that cannot be told apart -/

/-- Settings and sessions differ in passwords at most, each of the two has a link if the other has,
and everything else is the same. -/
structure Indistinct (x y : Exchange) : Prop where
  settings : x.settings.withoutPasswords = y.settings.withoutPasswords
  databases : x.databases.withoutPasswords = y.databases.withoutPasswords
  linked : x.link.isSome = y.link.isSome
  store : x.store = y.store
  registry : x.registry = y.registry
  locked : x.locked = y.locked
  pool : x.pool = y.pool
  stopped : x.stopped = y.stopped

theorem indistinct_refl (x : Exchange) : Indistinct x x :=
  ⟨rfl, rfl, rfl, rfl, rfl, rfl, rfl, rfl⟩

theorem Indistinct.symm (h : Indistinct x y) : Indistinct y x :=
  ⟨h.settings.symm, h.databases.symm, h.linked.symm, h.store.symm, h.registry.symm, h.locked.symm,
    h.pool.symm, h.stopped.symm⟩

theorem Indistinct.trans (h : Indistinct x y) (h' : Indistinct y z) : Indistinct x z :=
  ⟨h.settings.trans h'.settings, h.databases.trans h'.databases, h.linked.trans h'.linked,
    h.store.trans h'.store, h.registry.trans h'.registry, h.locked.trans h'.locked,
    h.pool.trans h'.pool, h.stopped.trans h'.stopped⟩

/-- Whatever a link is up to, it is there. -/
theorem indistinct_link (event : Admin.LinkEvent) (x : Exchange) :
    Indistinct (x.step (.link event)).2 x :=
  ⟨rfl, rfl, Option.isSome_map, rfl, rfl, rfl, rfl, rfl⟩

/-- The same result, and exchanges that cannot be told apart after it. -/
structure Alike {α : Type} (r r' : α × Exchange) : Prop where
  result : r.1 = r'.1
  state : Indistinct r.2 r'.2

theorem Alike.symm {α : Type} {r r' : α × Exchange} (h : Alike r r') : Alike r' r :=
  ⟨h.result.symm, h.state.symm⟩

theorem Alike.trans {α : Type} {r r' r'' : α × Exchange} (h : Alike r r') (h' : Alike r' r'') :
    Alike r r'' :=
  ⟨h.result.trans h'.result, h.state.trans h'.state⟩

theorem Alike.exists_eq {α : Type} {r r' : α × Exchange} (h : Alike r r') :
    ∃ result x y, r = (result, x) ∧ r' = (result, y) ∧ Indistinct x y :=
  ⟨r.1, r.2, r'.2, rfl, by rw [h.result], h.state⟩

theorem Alike.setupResult {α β : Type} (family : α → Fault) {r r' : Except α β × Exchange}
    (h : Alike r r') : Alike (setupResult family r) (setupResult family r') := by
  obtain ⟨result, x, y, rfl, rfl, hstate⟩ := h.exists_eq
  cases result with
  | error fault => exact ⟨rfl, hstate⟩
  | ok value => exact ⟨rfl, hstate⟩

/-! ## Running handlers -/

namespace Indistinct

theorem dispatch (h : Indistinct x y) (w : Surroundings) (name request : String) :
    Alike (x.dispatch w name request) (y.dispatch w name request) := by
  unfold Exchange.dispatch
  rw [h.registry]
  cases y.registry[name]? with
  | none => exact ⟨rfl, h⟩
  | some handler =>
    obtain ⟨houtcome, hlinked⟩ := handler.execute_of_isSome_eq h.linked w request
    exact ⟨congrArg Except.ok houtcome, { h with linked := hlinked, registry := rfl }⟩

theorem runInline (h : Indistinct x y) (w : Surroundings) (protocol payload : String)
    (capacity : Nat) :
    Alike (x.runInline w protocol payload capacity) (y.runInline w protocol payload capacity) := by
  obtain ⟨result, x', y', hx, hy, hstate⟩ := (h.dispatch w protocol payload).exists_eq
  unfold Exchange.runInline
  rw [hx, hy]
  cases result with
  | error fault => exact ⟨rfl, hstate⟩
  | ok outcome =>
    cases outcome with
    | panic => exact ⟨rfl, hstate⟩
    | reply text =>
      dsimp only
      split
      · exact ⟨rfl, hstate⟩
      · rw [hstate.store]
        split <;> exact ⟨rfl, { hstate with store := rfl }⟩

theorem handlerOf (h : Indistinct x y) (protocol : String) :
    x.handlerOf protocol = y.handlerOf protocol := by
  unfold Exchange.handlerOf
  rw [h.registry]

theorem runBackground (h : Indistinct x y) (protocol payload : String) :
    Alike (x.runBackground protocol payload) (y.runBackground protocol payload) := by
  unfold Exchange.runBackground
  rw [h.handlerOf]
  split
  · exact ⟨rfl, h⟩
  · next handler _ =>
    have hpost : x.pool.post? ⟨protocol, handler, payload, none⟩ =
        y.pool.post? ⟨protocol, handler, payload, none⟩ := congrArg _ h.pool
    rw [hpost]
    split
    · exact ⟨rfl, h⟩
    · exact ⟨rfl, { h with pool := rfl }⟩

theorem runKept (h : Indistinct x y) (protocol payload : String) :
    Alike (x.runKept protocol payload) (y.runKept protocol payload) := by
  unfold Exchange.runKept
  rw [h.handlerOf, h.store]
  split
  · exact ⟨rfl, h⟩
  · next handler _ =>
    split
    · exact ⟨rfl, { h with store := rfl }⟩
    · next id store _ =>
      have hpost : x.pool.post? ⟨protocol, handler, payload, some id⟩ =
          y.pool.post? ⟨protocol, handler, payload, some id⟩ := congrArg _ h.pool
      dsimp only
      rw [hpost]
      split
      · exact ⟨rfl, { h with store := rfl }⟩
      · exact ⟨rfl, { h with store := rfl, pool := rfl }⟩

/-! ## Setup commands -/

theorem startLink (h : Indistinct x y) (w : Surroundings) (config : String) :
    Alike (x.startLink w config) (y.startLink w config) := by
  unfold Exchange.startLink
  rw [h.linked]
  split
  · exact ⟨rfl, h⟩
  · obtain ⟨hx, hy⟩ | ⟨c, c', hx, hy, hconsole⟩ :=
      getElem?_of_map_eq (congrArg Settings.consoles h.settings) config
    · simp only [hx, hy]
      exact ⟨rfl, h⟩
    · -- the two sections lead to the same console, or to the same fault
      have hendpoint : (Endpoint.ofSection w.lookup c).map Endpoint.withoutPassword =
          (Endpoint.ofSection w.lookup c').map Endpoint.withoutPassword := by
        rw [← Endpoint.ofSection_withoutPassword, hconsole, Endpoint.ofSection_withoutPassword]
      obtain ⟨fault, hex, hey⟩ | ⟨e, e', hex, hey, -⟩ := Except.of_map_eq hendpoint
      · simp only [hx, hy, hex, hey]
        exact ⟨rfl, h⟩
      · by_cases hname : '\x00' ∈ config.toList
        · simp only [hx, hy, hex, hey, Link.start?, hname, ↓reduceIte]
          exact ⟨rfl, h⟩
        · simp only [hx, hy, hex, hey, Link.start?, hname, ↓reduceIte]
          exact ⟨rfl, { h with linked := rfl }⟩

theorem connectDatabase (h : Indistinct x y) (config id : String) :
    Alike (setupResult .setup (x.connectDatabase config id))
      (setupResult .setup (y.connectDatabase config id)) := by
  have htaken : x.databases.contains id = y.databases.contains id := by
    have hcontains (t : DatabaseSessions) : t.withoutPasswords.contains id = t.contains id :=
      Std.ExtTreeMap.contains_map
    rw [← hcontains, h.databases, hcontains]
  unfold Exchange.connectDatabase DatabaseSessions.connect
  obtain ⟨hx, hy⟩ | ⟨d, d', hx, hy, hdatabase⟩ :=
    getElem?_of_map_eq (congrArg Settings.databases h.settings) config
  · simp only [hx, hy]
    exact ⟨rfl, h⟩
  · rw [hx, hy, htaken]
    dsimp only
    by_cases hin : y.databases.contains id = true
    · rw [if_pos hin, if_pos hin]
      exact ⟨rfl, h⟩
    · rw [if_neg hin, if_neg hin]
      refine ⟨rfl, { h with databases := ?_ }⟩
      -- the two new sessions differ in the password at most
      have hsession : (⟨id, config, d⟩ : DatabaseSession).withoutPassword =
          (⟨id, config, d'⟩ : DatabaseSession).withoutPassword :=
        congrArg (DatabaseSession.mk id config) hdatabase
      show DatabaseSessions.withoutPasswords (x.databases.insert id _) =
        DatabaseSessions.withoutPasswords (y.databases.insert id _)
      rw [DatabaseSessions.withoutPasswords_insert, DatabaseSessions.withoutPasswords_insert,
        h.databases, hsession]

theorem sessionOf (h : Indistinct x y) (database : Option String) :
    (∃ fault, x.sessionOf database = .error fault ∧ y.sessionOf database = .error fault) ∨
      ∃ session session', x.sessionOf database = .ok session ∧
        y.sessionOf database = .ok session' := by
  cases database with
  | none => exact Or.inr ⟨none, none, rfl, rfl⟩
  | some id =>
    unfold Exchange.sessionOf DatabaseSessions.checkout
    obtain ⟨hx, hy⟩ | ⟨d, d', hx, hy, -⟩ := getElem?_of_map_eq h.databases id
    · simp only [hx, hy]
      exact Or.inl ⟨_, rfl, rfl⟩
    · simp only [hx, hy]
      exact Or.inr ⟨some d, some d', rfl, rfl⟩

theorem addHandler (h : Indistinct x y) (name kind : String) (database : Option String)
    (args : String) :
    Alike (x.addHandler name kind database args) (y.addHandler name kind database args) := by
  unfold Exchange.addHandler
  rw [h.registry]
  split
  · exact ⟨rfl, h⟩
  · obtain ⟨fault, hx, hy⟩ | ⟨session, session', hx, hy⟩ := h.sessionOf database
    · rw [hx, hy]
      exact ⟨rfl, h⟩
    · rw [hx, hy]
      dsimp only
      split
      · exact ⟨rfl, h⟩
      · next builtin _ =>
        unfold registerOn
        rw [h.registry, h.linked, Registry.register_builtin _ name builtin session session']
        exact ⟨rfl, { h with registry := rfl }⟩

theorem runSystem (h : Indistinct x y) (w : Surroundings) (command : SystemCommand)
    (capacity : Nat) : Alike (x.runSystem w command capacity) (y.runSystem w command capacity) := by
  unfold Exchange.runSystem
  rw [h.locked]
  split
  · exact ⟨rfl, h⟩
  · cases command with
    | version => exact ⟨rfl, h⟩
    | outputSize => exact ⟨rfl, h⟩
    | lock => exact ⟨rfl, { h with locked := rfl }⟩
    | lockStatus => exact ⟨rfl, h⟩
    | startConsole config =>
      obtain ⟨result, x', y', hx, hy, hstate⟩ := (h.startLink w config).exists_eq
      dsimp only
      rw [hx, hy]
      cases result with
      | error fault => exact ⟨rfl, hstate⟩
      | ok outcome => cases outcome <;> exact ⟨rfl, hstate⟩
    | bindDatabase config id => exact h.connectDatabase config id
    | addHandler database kind name args =>
      exact (h.addHandler name kind database args).setupResult .setup

/-! ## Calls -/

theorem execute (h : Indistinct x y) (w : Surroundings) (command : Command) (capacity : Nat) :
    Alike (x.execute w command capacity) (y.execute w command capacity) := by
  cases command with
  | run mode protocol payload =>
    cases mode with
    | inline => exact h.runInline w protocol payload capacity
    | background => exact h.runBackground protocol payload
    | kept => exact h.runKept protocol payload
  | take id =>
    unfold Exchange.execute
    rw [h.store]
    exact ⟨rfl, { h with store := rfl }⟩
  | takeChunk id =>
    unfold Exchange.execute
    rw [h.store]
    exact ⟨rfl, { h with store := rfl }⟩
  | system command => exact h.runSystem w command capacity

/-- **A call is answered alike**, also when it is refused. -/
theorem call (h : Indistinct x y) (w : Surroundings) (line : String) (capacity : Nat) :
    Alike (x.call w line capacity) (y.call w line capacity) := by
  have hattempt : Alike (x.attempt w line capacity) (y.attempt w line capacity) := by
    unfold attempt
    split
    · exact ⟨rfl, h⟩
    · exact h.execute w _ capacity
  rw [call_eq, call_eq, hattempt.result]
  exact ⟨rfl, hattempt.state⟩

/-! ## Events -/

theorem submit (h : Indistinct x y) (id : RequestId) (text : String) :
    Indistinct (x.submit id text) (y.submit id text) :=
  { h with store := congrArg (ResultStore.complete id text) h.store }

theorem perform (h : Indistinct x y) (w : Surroundings) (task : Task) :
    Indistinct (x.perform w task) (y.perform w task) := by
  obtain ⟨houtcome, hlinked⟩ := task.handler.execute_of_isSome_eq h.linked w task.request
  have hstate : Indistinct { x with link := (task.handler.execute w task.request x.link).2 }
      { y with link := (task.handler.execute w task.request y.link).2 } :=
    { h with linked := hlinked }
  unfold Exchange.perform
  cases task.slot with
  | none => exact hstate
  | some id =>
    show Indistinct
      (Exchange.submit id (keptText (task.handler.execute w task.request x.link).1) _)
      (Exchange.submit id (keptText (task.handler.execute w task.request y.link).1) _)
    rw [houtcome]
    exact hstate.submit id _

theorem startTask (h : Indistinct x y) :
    Indistinct (x.startTask?.getD x) (y.startTask?.getD y) := by
  unfold startTask?
  rw [h.pool]
  cases y.pool.start? with
  | none => exact h
  | some r => exact { h with pool := rfl }

theorem finishTask (h : Indistinct x y) (w : Surroundings) (place : Nat) :
    Indistinct ((x.finishTask? w place).getD x) ((y.finishTask? w place).getD y) := by
  unfold finishTask?
  rw [h.pool]
  cases y.pool.finish? place with
  | none => exact h
  | some r =>
    have hstate : Indistinct { x with pool := r.2 } { y with pool := r.2 } := { h with pool := rfl }
    exact hstate.perform w r.1

theorem enqueue (h : Indistinct x y) (text : String) :
    Indistinct (x.enqueue text).2 (y.enqueue text).2 := by
  rw [enqueue_snd, enqueue_snd]
  exact { h with linked := by rw [Option.isSome_map, Option.isSome_map, h.linked] }

/-- **One step**, unless an engine is plugged in, which may look at the session it gets. -/
theorem step (h : Indistinct x y) {event : ExchangeEvent} (hbuiltIn : event.isEngine = false) :
    Alike (x.step event) (y.step event) := by
  cases event with
  | call w line capacity =>
    obtain ⟨houtcome, hstate⟩ := h.call w line capacity
    exact ⟨congrArg some houtcome, hstate⟩
  | start => exact ⟨rfl, h.startTask⟩
  | finish w place => exact ⟨rfl, h.finishTask w place⟩
  | submit id text => exact ⟨rfl, h.submit id text⟩
  | enqueue text => exact ⟨rfl, h.enqueue text⟩
  | addEngine name engine database args => cases hbuiltIn
  | link event =>
    exact ⟨rfl, (indistinct_link event x).trans (h.trans (indistinct_link event y).symm)⟩
  | close =>
    exact ⟨rfl, { h with pool := congrArg Pool.close h.pool, stopped := rfl }⟩
  | stopLink =>
    refine ⟨rfl, ?_⟩
    show Indistinct (if x.stopped && x.pool.isIdle then x.stopLink else x)
      (if y.stopped && y.pool.isIdle then y.stopLink else y)
    rw [h.stopped, h.pool]
    split
    · exact { h with linked := rfl }
    · exact h

/-- **Runs**, with the events of the links left out at one of the two. -/
theorem run (h : Indistinct x y) {events : List ExchangeEvent}
    (hbuiltIn : ∀ e ∈ events, e.isEngine = false) :
    Alike (x.run events) (y.run (events.filter fun e => !e.isLink)) := by
  induction events generalizing x y with
  | nil => exact ⟨rfl, h⟩
  | cons event events ih =>
    obtain ⟨hhere, hlater⟩ := List.forall_mem_cons.1 hbuiltIn
    cases hlink : event.isLink with
    | true =>
      -- the other run does not have this event, and cannot tell
      cases event with
      | link event => exact ih ((indistinct_link event x).trans h) hlater
      | _ => cases hlink
    | false =>
      obtain ⟨houtcome, hstate⟩ := h.step hhere
      obtain ⟨houtcomes, hend⟩ := ih hstate hlater
      rw [List.filter_cons_of_pos (by rw [hlink]; rfl)]
      exact ⟨congrArg₂ (fun outcome? outcomes => outcome?.toList ++ outcomes) houtcome houtcomes,
        hend⟩

end Indistinct

/-! ## Opening -/

theorem launch_withoutPasswords (s : Settings) (processors : Nat) (draw : UInt64) :
    launch s.withoutPasswords processors draw =
      (launch s processors draw).map
        fun x => { x with settings := x.settings.withoutPasswords } := by
  unfold launch
  rw [Settings.invalidity?_withoutPasswords]
  cases s.invalidity? with
  | some reason => rfl
  | none =>
    have hworkers : s.withoutPasswords.workers processors = s.workers processors := rfl
    have hids : freeIds s.withoutPasswords draw = freeIds s draw := rfl
    simp only [hworkers, create, hids]
    cases Pool.ofSize? (s.workers processors) with
    | none => rfl
    | some pool => cases freeIds s draw <;> rfl

theorem indistinct_launch {s s' : Settings} (h : s.withoutPasswords = s'.withoutPasswords)
    (processors : Nat) (draw : UInt64) :
    (∃ fault, launch s processors draw = .error fault ∧ launch s' processors draw = .error fault) ∨
      ∃ x x', launch s processors draw = .ok x ∧ launch s' processors draw = .ok x' ∧
        Indistinct x x' := by
  have hlaunch := launch_withoutPasswords s processors draw
  rw [h, launch_withoutPasswords s' processors draw] at hlaunch
  obtain ⟨fault, hs', hs⟩ | ⟨x', x, hs', hs, heq⟩ := Except.of_map_eq hlaunch
  · exact Or.inl ⟨fault, hs, hs'⟩
  · obtain ⟨hsettings, hstore, hdatabases, hregistry, hlink, hlocked, hpool, hstopped⟩ :=
      Exchange.mk.inj heq.symm
    exact Or.inr ⟨x, x', hs, hs', hsettings, congrArg DatabaseSessions.withoutPasswords hdatabases,
      congrArg Option.isSome hlink, hstore, hregistry, hlocked, hpool, hstopped⟩

/-! ## The theorem -/

/-- **Passwords stay inside.** Take two settings that differ in passwords at most, and two lists of
events that differ in what the links do at most, with no engine from outside. Either both exchanges
are refused, for the same reason, or both are opened. Then all calls are answered alike, one by one,
and in the end the stored results are the same, so are the tasks, and sessions go by the same
description. -/
theorem replies_reveal_no_password {s s' : Settings}
    (hsettings : s.withoutPasswords = s'.withoutPasswords) (processors : Nat) (draw : UInt64)
    {events events' : List ExchangeEvent}
    (hevents : events.filter (fun e => !e.isLink) = events'.filter fun e => !e.isLink)
    (hbuiltIn : ∀ e ∈ events, e.isEngine = false) :
    (∃ fault, launch s processors draw = .error fault ∧ launch s' processors draw = .error fault) ∨
      ∃ x x', launch s processors draw = .ok x ∧ launch s' processors draw = .ok x' ∧
        (x.run events).1 = (x'.run events').1 ∧
        (x.run events).2.store = (x'.run events').2.store ∧
        (x.run events).2.pool = (x'.run events').2.pool ∧
        ∀ id : String,
          (x.run events).2.databases[id]?.map DatabaseSession.displayUrl =
            (x'.run events').2.databases[id]?.map DatabaseSession.displayUrl := by
  refine (indistinct_launch hsettings processors draw).imp_right ?_
  rintro ⟨x, x', hx, hx', hstart⟩
  have hbuiltIn' (e : ExchangeEvent) (he : e ∈ events') : e.isEngine = false := by
    cases hlink : e.isLink with
    | true =>
      cases e with
      | link event => rfl
      | _ => cases hlink
    | false =>
      have hfilter : e ∈ events.filter fun e => !e.isLink := by
        rw [hevents]
        exact List.mem_filter.2 ⟨he, by rw [hlink]; rfl⟩
      exact hbuiltIn e (List.mem_filter.1 hfilter).1
  -- both runs are like the one without the events of the links
  have hrun := (hstart.run hbuiltIn).trans
    (hevents ▸ ((indistinct_refl x').run hbuiltIn').symm)
  refine ⟨x, x', hx, hx', hrun.result, hrun.state.store, hrun.state.pool, fun id => ?_⟩
  obtain ⟨hnone, hnone'⟩ | ⟨d, d', hd, hd', heq⟩ := getElem?_of_map_eq hrun.state.databases id
  · rw [hnone, hnone']
  · have hurl := congrArg DatabaseSession.displayUrl heq
    rw [DatabaseSession.displayUrl_withoutPassword, DatabaseSession.displayUrl_withoutPassword]
      at hurl
    rw [hd, hd', Option.map_some, Option.map_some, hurl]

/-! Two exchanges with a console and a database, each with a password of its own. -/

def guarded (password : String) : Settings where
  testMode := true
  consoles := (∅ : Std.ExtTreeMap String ConsoleSection).insert "main" { password }
  databases := (∅ : Std.ExtTreeMap String DatabaseSection).insert "main" { password }

def guardedStart (password : String) : Exchange :=
  { echoStart with settings := guarded password }

/-- A session, a link and a relay are set up. -/
def relaySetup : List ExchangeEvent :=
  [.call echoSurroundings "9:DATABASE:main:d" 100, .call echoSurroundings "9:START_RCON:main" 100,
    .call echoSurroundings "9:ADD:d:RCON:r" 100]

/-- A command is relayed after the console has accepted the login. -/
def acceptedRelay : List ExchangeEvent :=
  relaySetup ++ [.link (.connect ⟨true, true⟩ 0), .link .proceed,
    .link (.receive (.datagram (Admin.frame .login [1])) true 1),
    .call echoSurroundings "0:r:players" 100]

/-- A command is relayed after the login could not be sent. -/
def unsentRelay : List ExchangeEvent :=
  relaySetup ++ [.link (.connect ⟨true, false⟩ 0), .call echoSurroundings "0:r:players" 100]

/-- Only the first of the two exchanges is logged in, and the host does not see it. -/
theorem replies_reveal_no_password_of_login :
    (guarded "right").withoutPasswords = (guarded "wrong").withoutPasswords ∧
    acceptedRelay.filter (fun e => !e.isLink) = unsentRelay.filter (fun e => !e.isLink) ∧
    (∀ e ∈ acceptedRelay, e.isEngine = false) ∧
    launch (guarded "right") 1 0 = .ok (guardedStart "right") ∧
    launch (guarded "wrong") 1 0 = .ok (guardedStart "wrong") ∧
    ((guardedStart "right").run acceptedRelay).2.link.map (·.published) = some .loggedIn ∧
    ((guardedStart "wrong").run unsentRelay).2.link.map (·.published) = some .disconnected ∧
    ((guardedStart "right").run acceptedRelay).1 = ((guardedStart "wrong").run unsentRelay).1 := by
  have hsettings : (guarded "right").withoutPasswords = (guarded "wrong").withoutPasswords := rfl
  have hevents : acceptedRelay.filter (fun e => !e.isLink) =
      unsentRelay.filter fun e => !e.isLink := rfl
  have hbuiltIn : ∀ e ∈ acceptedRelay, e.isEngine = false := by decide
  have hright : launch (guarded "right") 1 0 = .ok (guardedStart "right") := rfl
  have hwrong : launch (guarded "wrong") 1 0 = .ok (guardedStart "wrong") := rfl
  refine ⟨hsettings, hevents, hbuiltIn, hright, hwrong, by decide +kernel, by decide +kernel, ?_⟩
  obtain ⟨fault, hfault, -⟩ | ⟨x, x', hx, hx', hreplies, -⟩ :=
    replies_reveal_no_password hsettings 1 0 hevents hbuiltIn
  · cases hfault
  · cases hright.symm.trans hx
    cases hwrong.symm.trans hx'
    exact hreplies

end Exchange

end Switchboard
