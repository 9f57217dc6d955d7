import Switchboard.Proofs.Exchange.Steps

/-!
# What a command does

A command goes through, is refused, or breaks off, and each of the three is told apart once here, so
that what a command may change is read off its cases:

* **`Refusal`**: the reason that a command is refused for, one for each fault a call can end with.
* **`Registered`**: how a registration ends. A name is taken before the handler is initialised, and
  only an initialised handler gets a name.
* **`Binds`**: the one binding that a setup command adds: a link, a session or a handler.
* **`Carried`**: everything that carrying out a command can be (`carried_execute`). Whatever is
  refused leaves the exchange as it was, but for one case: a relay that was run at once has queued
  its request by the time no id is found for its answer.
* **`Attempted`**: the same for a line, which may be no command at all.
-/

namespace Switchboard

open Admin (Link Endpoint)

/-- A name that a table does not contain is free in it. -/
theorem not_mem_of_contains {α : Type} {t : Std.ExtTreeMap String α} {name : String}
    (h : t.contains name = false) : name ∉ t := by
  rw [Std.ExtTreeMap.mem_iff_contains, h]
  exact Bool.false_ne_true

/-! ## Registrations -/

/-- How a registration ends, and the handlers after it. -/
inductive Registered (linked : Bool) (p : Proposal) (r : Registry) :
    Except SetupFault Unit → Registry → Prop where
  | taken (htaken : p.name ∈ r) : Registered linked p r (.error (.nameTaken p.name)) r
  | failed (hinit : p.candidate.init? linked p.database p.args = none) :
      Registered linked p r (.error (.initFailed p.name)) r
  | added {handler : Handler} (hfree : p.name ∉ r)
      (hinit : p.candidate.init? linked p.database p.args = some handler) :
      Registered linked p r (.ok ()) (r.insert p.name handler)

theorem registered_register (linked : Bool) (p : Proposal) (r : Registry) :
    Registered linked p r (r.register linked p).1 (r.register linked p).2 := by
  cases htaken : r.contains p.name with
  | true =>
    simp only [Registry.register, Registration.step, htaken, ↓reduceIte]
    exact .taken htaken
  | false =>
    cases hinit : p.candidate.init? linked p.database p.args with
    | none =>
      simp only [Registry.register, Registration.step, htaken, hinit, Bool.false_eq_true,
        ↓reduceIte]
      exact .failed hinit
    | some handler =>
      simp only [Registry.register, Registration.step, htaken, hinit, Bool.false_eq_true,
        ↓reduceIte]
      exact .added (not_mem_of_contains htaken) hinit

/-! ## Handlers and the link -/

/-- Of all handlers only a relay acts on the link: it queues the request. -/
theorem Handler.execute_link (w : Surroundings) (request : String) (link : Option Link)
    (handler : Handler) :
    (handler.execute w request link).2 = link ∨
      ∃ l, handler = .relay ∧ link = some l ∧
        (handler.execute w request link).2 = some (l.enqueue request) := by
  cases handler with
  | misc => exact Or.inl rfl
  | engine answer => exact Or.inl rfl
  | relay =>
    cases link with
    | none => exact Or.inl rfl
    | some l => exact Or.inr ⟨l, rfl, rfl, rfl⟩

/-! ## Ids that are used up -/

namespace ResultStore

variable {s s' : ResultStore} {fault : CallFault}

/-- An id is refused only when none is free. -/
theorem issue_of_reserve (h : s.reserve = (.error fault, s')) : s.issue = none := by
  unfold reserve at h
  cases hissue : s.issue with
  | none => rfl
  | some r => simp [hissue] at h

theorem issue_of_storeReady {text : String} (h : s.storeReady text = (.error fault, s')) :
    s.issue = none ∧ fault = .idSpaceExhausted := by
  unfold storeReady at h
  cases hissue : s.issue with
  | none =>
    simp only [hissue, Prod.mk.injEq, Except.error.injEq] at h
    exact ⟨rfl, h.1.symm⟩
  | some r => simp [hissue] at h

end ResultStore

namespace Exchange

variable {x y : Exchange} {w : Surroundings} {range : Interval} {capacity : Nat}

/-! ## Refusals and bindings -/

/-- Why a command is refused. -/
inductive Refusal (w : Surroundings) (x : Exchange) : Command → Fault → Prop where
  | unknownProtocol {mode : Mode} {protocol payload : String}
      (hnone : x.registry[protocol]? = none) :
      Refusal w x (.run mode protocol payload) (.call (.unknownProtocol protocol))
  | exhausted {mode : Mode} {protocol payload : String} (hmode : mode ≠ .background)
      (hnone : x.store.issue = none) :
      Refusal w x (.run mode protocol payload) (.call .idSpaceExhausted)
  | poolClosed {mode : Mode} {protocol payload : String} (hmode : mode ≠ .inline)
      (hclosed : x.pool.isOpen = false) :
      Refusal w x (.run mode protocol payload) (.call .poolClosed)
  | locked {command : SystemCommand} (hsetup : command.isSetup = true)
      (hlocked : x.locked = true) : Refusal w x (.system command) (.call .locked)
  | alreadyStarted {config : String} (hlink : x.link.isSome = true) :
      Refusal w x (.system (.startConsole config)) (.link .alreadyStarted)
  | noConsole {config : String} (hnone : x.settings.consoles[config]? = none) :
      Refusal w x (.system (.startConsole config)) (.link (.noConfig config))
  | badAddress {config : String} {entry : ConsoleSection} {fault : LinkFault}
      (hentry : x.settings.consoles[config]? = some entry)
      (hfault : Endpoint.ofSection w.lookup entry = .error fault) :
      Refusal w x (.system (.startConsole config)) (.link fault)
  | noDatabaseConfig {config id : String} (hnone : x.settings.databases[config]? = none) :
      Refusal w x (.system (.bindDatabase config id)) (.setup (.noDatabaseConfig config))
  | databaseTaken {config id : String} (htaken : id ∈ x.databases) :
      Refusal w x (.system (.bindDatabase config id)) (.setup (.databaseTaken id))
  | nameTaken {database : Option String} {kind name args : String} (htaken : name ∈ x.registry) :
      Refusal w x (.system (.addHandler database kind name args)) (.setup (.nameTaken name))
  | noDatabase {id kind name args : String} (hnone : x.databases[id]? = none) :
      Refusal w x (.system (.addHandler (some id) kind name args)) (.setup (.noDatabase id))
  | unknownKind {database : Option String} {kind name args : String}
      (hnone : HandlerKind.ofName? kind = none) :
      Refusal w x (.system (.addHandler database kind name args)) (.setup (.unknownKind kind))
  | initFailed {database : Option String} {kind name args : String} {builtin : HandlerKind}
      {session : Option DatabaseSession} (hkind : HandlerKind.ofName? kind = some builtin)
      (hsession : x.sessionOf database = .ok session)
      (hinit : (Candidate.builtin builtin).init? x.link.isSome session args = none) :
      Refusal w x (.system (.addHandler database kind name args)) (.setup (.initFailed name))

/-- The binding that a setup command adds. -/
inductive Binds (w : Surroundings) (x : Exchange) : SystemCommand → Exchange → Prop where
  | link {config : String} {entry : ConsoleSection} {endpoint : Endpoint} (hempty : x.link = none)
      (hentry : x.settings.consoles[config]? = some entry)
      (hendpoint : Endpoint.ofSection w.lookup entry = .ok endpoint) :
      Binds w x (.startConsole config)
        { x with link := some (.start config endpoint (w.clock.now * 1000).toNat) }
  | session {config id : String} {entry : DatabaseSection} (hfree : id ∉ x.databases)
      (hentry : x.settings.databases[config]? = some entry) :
      Binds w x (.bindDatabase config id)
        { x with databases := x.databases.insert id ⟨id, config, entry⟩ }
  | handler {database : Option String} {kind name args : String} {builtin : HandlerKind}
      {session : Option DatabaseSession} {handler : Handler} (hfree : name ∉ x.registry)
      (hsession : x.sessionOf database = .ok session)
      (hkind : HandlerKind.ofName? kind = some builtin)
      (hinit : (Candidate.builtin builtin).init? x.link.isSome session args = some handler) :
      Binds w x (.addHandler database kind name args)
        { x with registry := x.registry.insert name handler }

/-! ## Everything that a command can be -/

/-- How a command ends, and the exchange after it. -/
inductive Carried (w : Surroundings) (x : Exchange) :
    Command → Except Fault Outcome → Exchange → Prop where
  | refused {command : Command} {fault : Fault} (hrefusal : Refusal w x command fault) :
      Carried w x command (.error fault) x
  /-- A relay has queued its request, and no id is free for its answer. -/
  | unanswered {protocol payload : String} {l : Link}
      (hhandler : x.registry[protocol]? = some .relay) (hlink : x.link = some l)
      (hnone : x.store.issue = none) :
      Carried w x (.run .inline protocol payload) (.error (.call .idSpaceExhausted))
        { x with link := some (l.enqueue payload) }
  | brokeOff {protocol payload : String} {handler : Handler} {link : Option Link}
      (hhandler : x.registry[protocol]? = some handler)
      (hexec : handler.execute w payload x.link = (.panic, link)) :
      Carried w x (.run .inline protocol payload) (.ok .panic) { x with link }
  | answered {protocol payload text reply : String} {handler : Handler} {link : Option Link}
      {store : ResultStore} (hhandler : x.registry[protocol]? = some handler)
      (hexec : handler.execute w payload x.link = (.reply text, link)) :
      Carried w x (.run .inline protocol payload) (.ok (.reply reply)) { x with link, store }
  | posted {mode : Mode} {protocol payload reply : String} {store : ResultStore} {pool : Pool Task}
      (hmode : mode ≠ .inline) :
      Carried w x (.run mode protocol payload) (.ok (.reply reply)) { x with store, pool }
  | fetched {command : Command} {id : RequestId} {reply : String} {store : ResultStore}
      (hcommand : command = .take id ∨ command = .takeChunk id) :
      Carried w x command (.ok (.reply reply)) { x with store }
  | told {command : SystemCommand} {reply : String} (hplain : command.isSetup = false) :
      Carried w x (.system command) (.ok (.reply reply)) x
  | locked : Carried w x (.system .lock) (.ok (.reply Token.ok.render)) { x with locked := true }
  /-- A thread is to have the name of the section, and cannot. -/
  | unnamed {config : String} {entry : ConsoleSection} {endpoint : Endpoint}
      (hunlocked : x.locked = false) (hempty : x.link = none)
      (hentry : x.settings.consoles[config]? = some entry)
      (hendpoint : Endpoint.ofSection w.lookup entry = .ok endpoint)
      (hname : '\x00' ∈ config.toList) :
      Carried w x (.system (.startConsole config)) (.ok .panic) x
  | bound {command : SystemCommand} {y : Exchange} (hunlocked : x.locked = false)
      (hbinds : Binds w x command y) :
      Carried w x (.system command) (.ok (.reply Token.ok.render)) y

theorem carried_runInline (w : Surroundings) (protocol payload : String) (capacity : Nat)
    (x : Exchange) :
    Carried w x (.run .inline protocol payload) (x.runInline w protocol payload capacity).1
      (x.runInline w protocol payload capacity).2 := by
  cases hhandler : x.registry[protocol]? with
  | none =>
    simp only [runInline, dispatch, hhandler]
    exact .refused (.unknownProtocol hhandler)
  | some handler =>
    have hlink := handler.execute_link w payload x.link
    cases hexec : handler.execute w payload x.link with
    | mk outcome link =>
      rw [hexec] at hlink
      cases outcome with
      | panic =>
        simp only [runInline, dispatch, hhandler, hexec]
        exact .brokeOff hhandler hexec
      | reply text =>
        simp only [runInline, dispatch, hhandler, hexec]
        split
        · exact .answered hhandler hexec
        · cases hstore : x.store.storeReady text with
          | mk result store =>
            cases result with
            | ok id => exact .answered hhandler hexec
            | error fault =>
              obtain ⟨hnone, rfl⟩ := ResultStore.issue_of_storeReady hstore
              obtain rfl := ResultStore.storeReady_error hstore
              -- what the handler did to the link stays done
              rcases hlink with rfl | ⟨l, rfl, hl, rfl⟩
              · exact .refused (.exhausted (by decide) hnone)
              · exact .unanswered hhandler hl hnone

theorem carried_runBackground (w : Surroundings) (protocol payload : String) (x : Exchange) :
    Carried w x (.run .background protocol payload) (x.runBackground protocol payload).1
      (x.runBackground protocol payload).2 := by
  unfold runBackground handlerOf
  cases hhandler : x.registry[protocol]? with
  | none => exact .refused (.unknownProtocol hhandler)
  | some handler =>
    dsimp only
    cases hpost : x.pool.post? ⟨protocol, handler, payload, none⟩ with
    | none => exact .refused (.poolClosed (by decide) (Pool.post?_eq_none_iff.1 hpost))
    | some pool => exact .posted (by decide)

/-- A kept call runs out of ids only when none is free. -/
theorem issue_of_runKept {protocol payload : String}
    (h : (x.runKept protocol payload).1 = .error (.call .idSpaceExhausted)) :
    x.store.issue = none := by
  unfold runKept handlerOf at h
  cases hhandler : x.registry[protocol]? with
  | none => simp [hhandler] at h
  | some handler =>
    cases hreserve : x.store.reserve with
    | mk result store =>
      cases result with
      | error fault => exact ResultStore.issue_of_reserve hreserve
      | ok id =>
        simp only [hhandler, hreserve] at h
        split at h <;> cases h

theorem carried_runKept (w : Surroundings) (hsound : x.store.Sound range)
    (protocol payload : String) :
    Carried w x (.run .kept protocol payload) (x.runKept protocol payload).1
      (x.runKept protocol payload).2 := by
  have hkept := kept_runKept hsound protocol payload
  have hexhausted : (x.runKept protocol payload).1 = .error (.call .idSpaceExhausted) →
      x.store.issue = none := issue_of_runKept
  generalize x.runKept protocol payload = r at hkept hexhausted ⊢
  obtain ⟨result, y⟩ := r
  dsimp only at hkept ⊢
  cases hkept with
  | unknown hnone => exact .refused (.unknownProtocol hnone)
  | exhausted => exact .refused (.exhausted (by decide) (hexhausted rfl))
  | closed hclosed => exact .refused (.poolClosed (by decide) hclosed)
  | accepted hhandler hreserve hpost => exact .posted (by decide)

/-! ## Setup commands -/

/-- A session that is missing was named. -/
theorem sessionOf_eq_error {database : Option String} {fault : SetupFault}
    (h : x.sessionOf database = .error fault) :
    ∃ id, database = some id ∧ x.databases[id]? = none ∧ fault = .noDatabase id := by
  cases database with
  | none => cases h
  | some id =>
    cases hsession : x.databases[id]? with
    | some session => simp [sessionOf, DatabaseSessions.checkout, hsession, Except.map] at h
    | none =>
      simp only [sessionOf, DatabaseSessions.checkout, hsession, Except.map, Except.error.injEq]
        at h
      exact ⟨id, rfl, hsession, h.symm⟩

section Unlocked

variable (hunlocked : x.locked = false)

include hunlocked

theorem not_withheld (command : SystemCommand) : ¬ (command.isSetup && x.locked) = true := by
  rw [hunlocked, Bool.and_false]
  exact Bool.false_ne_true

theorem runSystem_startConsole (config : String) :
    x.runSystem w (.startConsole config) capacity =
      match x.startLink w config with
      | (.ok .panic, y) => (.ok .panic, y)
      | r => setupResult .link r :=
  if_neg (not_withheld hunlocked _)

theorem runSystem_bindDatabase (config id : String) :
    x.runSystem w (.bindDatabase config id) capacity =
      setupResult .setup (x.connectDatabase config id) :=
  if_neg (not_withheld hunlocked _)

theorem runSystem_addHandler (database : Option String) (kind name args : String) :
    x.runSystem w (.addHandler database kind name args) capacity =
      setupResult .setup (x.addHandler name kind database args) :=
  if_neg (not_withheld hunlocked _)

theorem carried_startConsole (config : String) :
    Carried w x (.system (.startConsole config))
      (x.runSystem w (.startConsole config) capacity).1
      (x.runSystem w (.startConsole config) capacity).2 := by
  rw [runSystem_startConsole hunlocked]
  cases hlink : x.link with
  | some l =>
    simp only [startLink, hlink, Option.isSome_some, ↓reduceIte, setupResult]
    exact .refused (.alreadyStarted (hlink ▸ rfl))
  | none =>
    cases hentry : x.settings.consoles[config]? with
    | none =>
      simp only [startLink, hlink, hentry, Option.isSome_none, Bool.false_eq_true, ↓reduceIte,
        setupResult]
      exact .refused (.noConsole hentry)
    | some entry =>
      cases hendpoint : Endpoint.ofSection w.lookup entry with
      | error fault =>
        simp only [startLink, hlink, hentry, hendpoint, Option.isSome_none, Bool.false_eq_true,
          ↓reduceIte, setupResult]
        exact .refused (.badAddress hentry hendpoint)
      | ok endpoint =>
        by_cases hname : '\x00' ∈ config.toList
        · simp only [startLink, Link.start?, hlink, hentry, hendpoint, hname, Option.isSome_none,
            Bool.false_eq_true, ↓reduceIte]
          exact .unnamed hunlocked hlink hentry hendpoint hname
        · simp only [startLink, Link.start?, hlink, hentry, hendpoint, hname, Option.isSome_none,
            Bool.false_eq_true, ↓reduceIte]
          exact .bound hunlocked (.link hlink hentry hendpoint)

theorem carried_bindDatabase (config id : String) :
    Carried w x (.system (.bindDatabase config id))
      (x.runSystem w (.bindDatabase config id) capacity).1
      (x.runSystem w (.bindDatabase config id) capacity).2 := by
  rw [runSystem_bindDatabase hunlocked]
  cases hentry : x.settings.databases[config]? with
  | none =>
    simp only [connectDatabase, DatabaseSessions.connect, hentry, setupResult]
    exact .refused (.noDatabaseConfig hentry)
  | some entry =>
    cases htaken : x.databases.contains id with
    | true =>
      simp only [connectDatabase, DatabaseSessions.connect, hentry, htaken, ↓reduceIte, setupResult]
      exact .refused (.databaseTaken (Std.ExtTreeMap.mem_iff_contains.2 htaken))
    | false =>
      simp only [connectDatabase, DatabaseSessions.connect, hentry, htaken, Bool.false_eq_true,
        ↓reduceIte, setupResult]
      exact .bound hunlocked (.session (not_mem_of_contains htaken) hentry)

theorem carried_addHandler (database : Option String) (kind name args : String) :
    Carried w x (.system (.addHandler database kind name args))
      (x.runSystem w (.addHandler database kind name args) capacity).1
      (x.runSystem w (.addHandler database kind name args) capacity).2 := by
  rw [runSystem_addHandler hunlocked]
  cases htaken : x.registry.contains name with
  | true =>
    simp only [addHandler, htaken, ↓reduceIte, setupResult]
    exact .refused (.nameTaken (Std.ExtTreeMap.mem_iff_contains.2 htaken))
  | false =>
    cases hsession : x.sessionOf database with
    | error fault =>
      obtain ⟨id, rfl, hnone, rfl⟩ := sessionOf_eq_error hsession
      simp only [addHandler, htaken, hsession, Bool.false_eq_true, ↓reduceIte, setupResult]
      exact .refused (.noDatabase hnone)
    | ok session =>
      cases hkind : HandlerKind.ofName? kind with
      | none =>
        simp only [addHandler, htaken, hsession, hkind, Bool.false_eq_true, ↓reduceIte, setupResult]
        exact .refused (.unknownKind hkind)
      | some builtin =>
        -- the name was free, but the registration looks at it again
        have hregistered := registered_register x.link.isSome
          ⟨name, .builtin builtin, session, args⟩ x.registry
        simp only [addHandler, htaken, hsession, hkind, Bool.false_eq_true, ↓reduceIte, registerOn]
        generalize x.registry.register x.link.isSome ⟨name, .builtin builtin, session, args⟩ = r
          at hregistered ⊢
        obtain ⟨result, registry⟩ := r
        dsimp only at hregistered ⊢
        cases hregistered with
        | taken htaken => exact .refused (.nameTaken htaken)
        | failed hinit => exact .refused (.initFailed hkind hsession hinit)
        | added hfree hinit => exact .bound hunlocked (.handler hfree hsession hkind hinit)

end Unlocked

theorem carried_runSystem (w : Surroundings) (command : SystemCommand) (capacity : Nat)
    (x : Exchange) :
    Carried w x (.system command) (x.runSystem w command capacity).1
      (x.runSystem w command capacity).2 := by
  by_cases hrefused : command.isSetup = true ∧ x.locked = true
  · obtain ⟨hsetup, hlocked⟩ := hrefused
    simp only [runSystem, hsetup, hlocked, Bool.and_self, ↓reduceIte]
    exact .refused (.locked hsetup hlocked)
  · have hunlocked (hsetup : command.isSetup = true) : x.locked = false :=
      Bool.eq_false_iff.2 fun hlocked => hrefused ⟨hsetup, hlocked⟩
    cases command with
    | version => exact .told rfl
    | outputSize => exact .told rfl
    | lock => exact .locked
    | lockStatus => exact .told rfl
    | startConsole config => exact carried_startConsole (hunlocked rfl) config
    | bindDatabase config id => exact carried_bindDatabase (hunlocked rfl) config id
    | addHandler database kind name args =>
      exact carried_addHandler (hunlocked rfl) database kind name args

/-- **What a command does**, and nothing else is possible. -/
theorem carried_execute (w : Surroundings) (hsound : x.store.Sound range) (command : Command)
    (capacity : Nat) :
    Carried w x command (x.execute w command capacity).1 (x.execute w command capacity).2 := by
  cases command with
  | run mode protocol payload =>
    cases mode with
    | inline => exact carried_runInline w protocol payload capacity x
    | background => exact carried_runBackground w protocol payload x
    | kept => exact carried_runKept w hsound protocol payload
  | take id => exact .fetched (Or.inl rfl)
  | takeChunk id => exact .fetched (Or.inr rfl)
  | system command => exact carried_runSystem w command capacity x

/-! ## Calls -/

/-- What the host is answered. -/
def answerOf : Except Fault Outcome → Outcome
  | .ok outcome => outcome
  | .error fault => .reply (Token.error fault.hostMessage).render

theorem call_eq (w : Surroundings) (line : String) (capacity : Nat) (x : Exchange) :
    x.call w line capacity =
      (answerOf (x.attempt w line capacity).1, (x.attempt w line capacity).2) := by
  unfold call
  split <;> next h => rw [h]; rfl

/-- **What a call does**: the line is no command, and nothing happens, or its command is carried
out. -/
inductive Attempted (w : Surroundings) (x : Exchange) (line : String) :
    Except Fault Outcome → Exchange → Prop where
  | malformed {fault : CallFault} (hparse : Command.parse line = .error fault) :
      Attempted w x line (.error (.call fault)) x
  | carried {command : Command} {result : Except Fault Outcome} {y : Exchange}
      (hparse : Command.parse line = .ok command) (hcarried : Carried w x command result y) :
      Attempted w x line result y

theorem attempted_attempt (w : Surroundings) (hsound : x.store.Sound range) (line : String)
    (capacity : Nat) :
    Attempted w x line (x.attempt w line capacity).1 (x.attempt w line capacity).2 := by
  unfold attempt
  cases hparse : Command.parse line with
  | error fault => exact .malformed hparse
  | ok command => exact .carried hparse (carried_execute w hsound command capacity)

end Exchange

end Switchboard
