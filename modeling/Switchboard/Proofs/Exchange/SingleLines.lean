import Switchboard.Proofs.Command.Grammar
import Switchboard.Proofs.Exchange.BreakingOff
import Switchboard.Proofs.Exchange.Shutdown

/-!
# Replies are single lines

A reply is printed as one line, so it must not hold a newline. That none does is not seen at the
reply alone: a collected text was stored by an earlier call, and a stored one is what a handler has
answered, which may be what the host has asked.

* **`SingleLine`**: a text without a newline. Tokens are single lines whatever they are about,
  because a newline between quotes is escaped (`singleLine_render`).
* **`singleLine_execute`**: a handler of the built-in kinds answers a single line with a single
  line.
* **`SingleLined`**: all handlers are of these kinds, and all that is stored, and all that is queued
  for the workers, is in single lines. Calls with single lines keep it so, and so do the workers and
  the link (`singleLined_call`, `singleLined_run`).
-/

namespace Switchboard

open Text

/-! ## Texts -/

/-- A text without a newline. -/
def SingleLine (s : String) : Prop :=
  '\n' ∉ s.toList

instance (s : String) : Decidable (SingleLine s) :=
  inferInstanceAs (Decidable ('\n' ∉ s.toList))

@[simp] theorem singleLine_append {a b : String} :
    SingleLine (a ++ b) ↔ SingleLine a ∧ SingleLine b := by
  simp [SingleLine]

theorem singleLine_of_isDigit {s : String} (h : ∀ c ∈ s.toList, c.isDigit = true) :
    SingleLine s := fun hnewline =>
  absurd (h '\n' hnewline) (by decide)

theorem singleLine_toString_nat (n : Nat) : SingleLine (toString n) :=
  singleLine_of_isDigit fun _ hc => isDigit_of_mem_repr hc

theorem singleLine_toString_int (n : Int) : SingleLine (toString n) := by
  cases n with
  | ofNat n => exact singleLine_toString_nat n
  | negSucc n =>
    show SingleLine ("-" ++ (n + 1).repr)
    exact singleLine_append.2 ⟨by decide, singleLine_toString_nat (n + 1)⟩

theorem singleLine_intercalate {separator : String} {parts : List String}
    (hseparator : SingleLine separator) (hparts : ∀ part ∈ parts, SingleLine part) :
    SingleLine (separator.intercalate parts) := by
  induction parts with
  | nil => exact List.not_mem_nil
  | cons first rest ih =>
    obtain ⟨hfirst, hrest⟩ := List.forall_mem_cons.1 hparts
    cases rest with
    | nil => exact hfirst
    | cons second rest =>
      rw [String.intercalate_cons_cons, singleLine_append, singleLine_append]
      exact ⟨⟨hfirst, hseparator⟩, ih hrest⟩

/-! ## Tokens -/

/-- A newline between quotes is escaped. -/
theorem singleLine_quote (s : String) : SingleLine (Quoted.quote s) := fun hnewline =>
  absurd (Quoted.le_toNat_of_mem_quote hnewline) (by decide)

/-- **Every token is a single line.** -/
theorem singleLine_render (token : Token) : SingleLine token.render := fun hnewline =>
  absurd (Token.le_toNat_of_mem_render hnewline) (by decide)

/-! ## Handlers -/

/-- An outcome that is printed as one line, if it is printed. -/
def Outcome.IsLine : Outcome → Prop
  | reply text => SingleLine text
  | panic => True

/-- A handler of one of the built-in kinds. -/
def Handler.IsBuiltIn (handler : Handler) : Prop :=
  handler = .misc ∨ handler = .relay

theorem Candidate.isBuiltIn_of_init? {kind : HandlerKind} {linked : Bool}
    {database : Option DatabaseSession} {args : String} {handler : Handler}
    (h : (Candidate.builtin kind).init? linked database args = some handler) :
    handler.IsBuiltIn := by
  cases kind with
  | misc =>
    cases h
    exact Or.inl rfl
  | relay =>
    cases linked with
    | false => cases h
    | true =>
      cases h
      exact Or.inr rfl

namespace Misc

theorem isLine_refuse (reason : String) : (refuse reason).IsLine :=
  singleLine_render (.error reason)

theorem singleLine_timeText (d : DateTime) : SingleLine (timeText d) := by
  have hfields : SingleLine (",".intercalate
      ([d.year, d.month, d.day, d.hour, d.minute, d.second].map toString)) := by
    refine singleLine_intercalate (by decide) fun field hfield => ?_
    obtain ⟨n, -, rfl⟩ := List.mem_map.1 hfield
    exact singleLine_toString_int n
  rw [timeText, singleLine_append, singleLine_append]
  exact ⟨⟨by decide, hfields⟩, by decide⟩

theorem singleLine_wordsText (words : List String) : SingleLine (wordsText words) := by
  have hwords : SingleLine (",".intercalate (words.map Quoted.quote)) := by
    refine singleLine_intercalate (by decide) fun word hword => ?_
    obtain ⟨s, -, rfl⟩ := List.mem_map.1 hword
    exact singleLine_quote s
  rw [wordsText, singleLine_append, singleLine_append]
  exact ⟨⟨by decide, hwords⟩, by decide⟩

theorem isLine_time (clock : Clock) (shift : Option String) : (time clock shift).IsLine := by
  unfold time
  split
  · exact singleLine_timeText _
  · split
    · exact singleLine_timeText _
    · split
      · exact isLine_refuse _
      · split
        · exact trivial
        · split
          · exact singleLine_timeText _
          · exact isLine_refuse _

theorem isLine_randomWords (draw : (length : Nat) → List (Word length)) (args : String) :
    (randomWords draw args).IsLine := by
  unfold randomWords
  split
  · exact isLine_refuse _
  · exact singleLine_wordsText _

/-- The utilities answer in single lines, and they echo a single line as one. -/
theorem isLine_execute (w : Surroundings) {request : String} (hrequest : SingleLine request) :
    (execute w request).IsLine := by
  unfold execute
  split
  · split
    · exact isLine_time _ _
    · split
      · exact singleLine_timeText _
      · exact isLine_refuse _
  · next name args hcut =>
    split
    · exact isLine_time _ _
    split
    · exact singleLine_render (.okText _)
    split
    · exact isLine_randomWords _ _
    split
    · obtain ⟨rfl, -⟩ := cut?_eq_some_iff.1 hcut
      exact (singleLine_append.1 hrequest).2
    · exact isLine_refuse _

end Misc

/-- **A built-in handler answers a single line with a single line.** -/
theorem Handler.IsBuiltIn.isLine_execute {handler : Handler} (h : handler.IsBuiltIn)
    (w : Surroundings) {request : String} (hrequest : SingleLine request)
    (link : Option Admin.Link) : (handler.execute w request link).1.IsLine := by
  rcases h with rfl | rfl
  · exact Misc.isLine_execute w hrequest
  · cases link with
    | none => exact singleLine_render (.error _)
    | some l => exact singleLine_render .ok

/-! ## Stored texts -/

namespace ResultStore

variable {s s' : ResultStore} {id : RequestId} {text : String} {range : Interval}

/-- All texts that wait for the host are single lines. -/
def IsLined (s : ResultStore) : Prop :=
  ∀ (id : RequestId) text, s.entries[id]? = some (.ready text) → SingleLine text

theorem IsLined.of_insert {entry : StoredResult} (h : s.IsLined)
    (hentry : ∀ text, entry = .ready text → SingleLine text)
    (hentries : s'.entries = s.entries.insert id entry) : s'.IsLined := by
  intro id' text' hready
  by_cases heq : id = id'
  · subst heq
    rw [hentries, Std.ExtTreeMap.getElem?_insert_self] at hready
    exact hentry text' (Option.some.inj hready)
  · rw [hentries, getElem?_insert_of_ne heq] at hready
    exact h id' text' hready

theorem IsLined.of_erase (h : s.IsLined) (hentries : s'.entries = s.entries.erase id) :
    s'.IsLined := by
  intro id' text' hready
  by_cases heq : id = id'
  · subst heq
    simp [hentries] at hready
  · rw [hentries, getElem?_erase_of_ne heq] at hready
    exact h id' text' hready

theorem IsLined.of_ready (h : s.IsLined) (htext : SingleLine text)
    (hentries : s'.entries = s.entries.insert id (.ready text)) : s'.IsLined :=
  h.of_insert (fun _ heq => StoredResult.ready.inj heq ▸ htext) hentries

theorem IsLined.complete (h : s.IsLined) (htext : SingleLine text) (id : RequestId) :
    (s.complete id text).IsLined := by
  unfold ResultStore.complete
  split
  · exact h.of_ready htext rfl
  · exact h

/-- What is handed out and what is kept of single lines are single lines. -/
theorem Fetched.isLined {fetch : Fetch} (hfetched : s.Fetched id fetch s') (h : s.IsLined) :
    SingleLine fetch.text ∧ s'.IsLined := by
  cases hfetched with
  | whole hready hentries => exact ⟨h _ _ hready, h.of_erase hentries⟩
  | piece hready htext hentries =>
    obtain ⟨hfront, hrest⟩ := singleLine_append.1 (htext ▸ h _ _ hready)
    exact ⟨hfront, h.of_ready hrest hentries⟩
  | drained hready hentries => exact ⟨List.not_mem_nil, h.of_erase hentries⟩
  | refused hnot =>
    rw [Fetch.text_of_not_data hnot]
    exact ⟨List.not_mem_nil, h⟩

end ResultStore

namespace Exchange

theorem singleLine_fetchText {fetch : Fetch} (h : SingleLine fetch.text) :
    SingleLine (fetchText fetch) := by
  cases fetch with
  | missing => exact List.not_mem_nil
  | notReady => exact singleLine_render .notReady
  | tooLarge => exact singleLine_render .tooLarge
  | data text => exact h

/-! ## Calls -/

variable {x y : Exchange} {w : Surroundings} {range : Interval} {protocol payload line : String}
  {capacity : Nat}

/-- Everything that an exchange can come to print is in single lines. -/
structure SingleLined (x : Exchange) : Prop where
  builtIn : BuiltIn x
  stored : x.store.IsLined
  /-- The tasks of the workers ask built-in handlers in single lines. -/
  asked : ∀ task ∈ x.pool.tasks, task.handler.IsBuiltIn ∧ SingleLine task.request

/-- A command ends in a single line, or in a fault, whose token is one, and leaves an exchange in
single lines. -/
structure Lined (r : Except Fault Outcome × Exchange) : Prop where
  outcome : ∀ outcome, r.1 = .ok outcome → outcome.IsLine
  state : SingleLined r.2

theorem lined_reply {text : String} (htext : SingleLine text) (h : SingleLined y) :
    Lined (.ok (.reply text), y) :=
  ⟨fun _ heq => Except.ok.inj heq ▸ htext, h⟩

theorem lined_error (fault : Fault) (h : SingleLined y) : Lined (.error fault, y) :=
  ⟨nofun, h⟩

theorem lined_panic (h : SingleLined y) : Lined (.ok .panic, y) :=
  ⟨fun _ heq => Except.ok.inj heq ▸ trivial, h⟩

/-- A task joins those of the workers. -/
theorem SingleLined.of_post? {task : Task} {pool : Pool Task} {store : ResultStore}
    (h : SingleLined x) (hpost : x.pool.post? task = some pool) (hhandler : task.handler.IsBuiltIn)
    (hrequest : SingleLine task.request) (hstored : store.IsLined) :
    SingleLined { x with store, pool } := by
  refine ⟨h.builtIn, hstored, fun task' htask => ?_⟩
  rcases List.mem_cons.1 ((Pool.tasks_of_post? hpost).mem_iff.1 htask) with rfl | hmem
  · exact ⟨hhandler, hrequest⟩
  · exact h.asked task' hmem

theorem lined_runInline (h : SingleLined x) (hsound : x.store.Sound range)
    (hpayload : SingleLine payload) (w : Surroundings) (protocol : String) (capacity : Nat) :
    Lined (x.runInline w protocol payload capacity) := by
  unfold runInline dispatch
  cases hhandler : x.registry[protocol]? with
  | none => exact lined_error _ h
  | some handler =>
    have hbuiltIn : handler.IsBuiltIn := h.builtIn protocol handler hhandler
    have hanswer := hbuiltIn.isLine_execute w hpayload x.link
    dsimp only
    generalize handler.execute w payload x.link = answer at hanswer ⊢
    obtain ⟨outcome, link⟩ := answer
    cases outcome with
    | panic => exact lined_panic ⟨h.builtIn, h.stored, h.asked⟩
    | reply text =>
      dsimp only
      split
      · exact lined_reply hanswer ⟨h.builtIn, h.stored, h.asked⟩
      · cases hstore : x.store.storeReady text with
        | mk result store =>
          cases result with
          | error fault =>
            obtain rfl := ResultStore.storeReady_error hstore
            exact lined_error _ ⟨h.builtIn, h.stored, h.asked⟩
          | ok id =>
            have hentries := (ResultStore.storeReady_ok hsound hstore).2
            exact lined_reply (singleLine_render (.deferred id))
              ⟨h.builtIn, h.stored.of_ready hanswer hentries, h.asked⟩

theorem lined_runBackground (h : SingleLined x) (hpayload : SingleLine payload)
    (protocol : String) : Lined (x.runBackground protocol payload) := by
  unfold runBackground handlerOf
  cases hhandler : x.registry[protocol]? with
  | none => exact lined_error _ h
  | some handler =>
    dsimp only
    split
    · exact lined_error _ h
    · next pool hpost =>
      exact lined_reply (singleLine_render .ok)
        (h.of_post? hpost (h.builtIn protocol handler hhandler) hpayload h.stored)

theorem lined_runKept (h : SingleLined x) (hsound : x.store.Sound range)
    (hpayload : SingleLine payload) (protocol : String) : Lined (x.runKept protocol payload) := by
  have hkept := kept_runKept hsound protocol payload
  generalize x.runKept protocol payload = r at hkept ⊢
  obtain ⟨result, y⟩ := r
  dsimp only at hkept
  cases hkept with
  | unknown hnone => exact lined_error _ h
  | exhausted => exact lined_error _ h
  | closed hclosed => exact lined_error _ h
  | @accepted handler id store pool hhandler hreserve hpost =>
    have hstored := h.stored.of_insert (fun _ heq => by cases heq)
      (ResultStore.reserve_ok hsound hreserve).2
    exact lined_reply (singleLine_render (.deferred id))
      (h.of_post? hpost (h.builtIn protocol handler hhandler) hpayload hstored)

/-- Collecting hands out what was stored. -/
theorem lined_fetched (h : SingleLined x) {id : RequestId} {fetch : Fetch} {store : ResultStore}
    (hfetched : x.store.Fetched id fetch store) :
    Lined (.ok (.reply (fetchText fetch)), { x with store }) := by
  obtain ⟨htext, hstored⟩ := hfetched.isLined h.stored
  exact lined_reply (singleLine_fetchText htext) ⟨h.builtIn, hstored, h.asked⟩

/-! ## Administrative commands -/

/-- A handler that a setup command binds is of a built-in kind. -/
theorem Binds.builtIn {command : SystemCommand} (h : Binds w x command y) (hbuiltIn : BuiltIn x) :
    BuiltIn y := by
  cases h with
  | link hempty hentry hendpoint => exact hbuiltIn
  | session hfree hentry => exact hbuiltIn
  | @handler database kind name args builtin session handler hfree hsession hkind hinit =>
    intro name' handler' hbound
    rw [Std.ExtTreeMap.getElem?_insert] at hbound
    split at hbound
    · cases hbound
      exact Candidate.isBuiltIn_of_init? hinit
    · exact hbuiltIn name' handler' hbound

theorem builtIn_runSystem (hbuiltIn : BuiltIn x) (w : Surroundings) (command : SystemCommand)
    (capacity : Nat) : BuiltIn (x.runSystem w command capacity).2 := by
  have hcarried := carried_runSystem w command capacity x
  generalize x.runSystem w command capacity = r at hcarried ⊢
  obtain ⟨result, y⟩ := r
  dsimp only at hcarried ⊢
  cases hcarried with
  | refused hrefusal => exact hbuiltIn
  | fetched hcommand => exact hbuiltIn
  | told hplain => exact hbuiltIn
  | locked => exact hbuiltIn
  | unnamed hunlocked hempty hentry hendpoint hname => exact hbuiltIn
  | bound hunlocked hbinds => exact hbinds.builtIn hbuiltIn

theorem isLine_setupResult {α β : Type} {family : α → Fault} {r : Except α β × Exchange}
    {outcome : Outcome} (h : (setupResult family r).1 = .ok outcome) : outcome.IsLine := by
  obtain ⟨result, y⟩ := r
  cases result with
  | error fault => cases h
  | ok b =>
    cases h
    exact singleLine_render .ok

theorem isLine_runSystem {command : SystemCommand} {outcome : Outcome}
    (h : (x.runSystem w command capacity).1 = .ok outcome) : outcome.IsLine := by
  unfold runSystem at h
  split at h
  · cases h
  · cases command with
    | version =>
      cases h
      show SingleLine version
      decide
    | outputSize =>
      cases h
      exact singleLine_toString_nat capacity
    | lock =>
      cases h
      exact singleLine_render .ok
    | lockStatus =>
      cases h
      exact singleLine_render _
    | startConsole config =>
      dsimp only at h
      split at h
      · cases h
        exact trivial
      · exact isLine_setupResult h
    | bindDatabase config id => exact isLine_setupResult h
    | addHandler database kind name initArgs => exact isLine_setupResult h

/-- Administrative commands do not touch what is stored or queued. -/
theorem lined_runSystem (h : SingleLined x) (w : Surroundings) (command : SystemCommand)
    (capacity : Nat) : Lined (x.runSystem w command capacity) := by
  have hquiet := quiet_runSystem w command capacity x
  refine ⟨fun outcome => isLine_runSystem, builtIn_runSystem h.builtIn w command capacity, ?_, ?_⟩
  · rw [hquiet.store]
    exact h.stored
  · rw [hquiet.pool]
    exact h.asked

/-! ## Steps -/

/-- What a command is about is in single lines, if its line is one. -/
theorem singleLine_payload {mode : Mode} (hline : SingleLine line)
    (hparse : Command.parse line = .ok (.run mode protocol payload)) : SingleLine payload := by
  cases Command.spelled_of_parse hparse with
  | run _ hprotocol hcolon hpayload => exact (singleLine_append.1 hline).2

/-- **A call with a single line** is answered with one, and leaves an exchange in single lines. -/
theorem singleLined_call (h : SingleLined x) (hsound : x.store.Sound range)
    (hline : SingleLine line) (w : Surroundings) (capacity : Nat) :
    (x.call w line capacity).1.IsLine ∧ SingleLined (x.call w line capacity).2 := by
  have hlined : Lined (x.attempt w line capacity) := by
    unfold attempt
    cases hparse : Command.parse line with
    | error fault => exact lined_error _ h
    | ok command =>
      cases command with
      | run mode protocol payload =>
        have hpayload := singleLine_payload hline hparse
        cases mode with
        | inline => exact lined_runInline h hsound hpayload w protocol capacity
        | background => exact lined_runBackground h hpayload protocol
        | kept => exact lined_runKept h hsound hpayload protocol
      | take id => exact lined_fetched h (ResultStore.fetched_take x.store id capacity)
      | takeChunk id => exact lined_fetched h (ResultStore.fetched_takeChunk x.store id capacity)
      | system command => exact lined_runSystem h w command capacity
  rw [call_eq]
  generalize x.attempt w line capacity = r at hlined ⊢
  obtain ⟨result, y⟩ := r
  refine ⟨?_, hlined.state⟩
  cases result with
  | error fault => exact singleLine_render (.error _)
  | ok outcome => exact hlined.outcome outcome rfl

/-! ## Workers -/

theorem singleLine_keptText {outcome : Outcome} (h : outcome.IsLine) :
    SingleLine (keptText outcome) := by
  cases outcome with
  | reply text => exact h
  | panic => exact singleLine_render (.error _)

theorem singleLined_startTask? (h : SingleLined x) (hstart : x.startTask? = some y) :
    SingleLined y := by
  obtain ⟨⟨task, pool⟩, hpool, rfl⟩ := Option.map_eq_some_iff.1 hstart
  refine ⟨h.builtIn, h.stored, fun task' htask => ?_⟩
  exact h.asked task' ((Pool.tasks_of_start? hpool).mem_iff.1 htask)

theorem singleLined_finishTask? (h : SingleLined x) {place : Nat}
    (hfinish : x.finishTask? w place = some y) : SingleLined y := by
  obtain ⟨⟨task, pool⟩, hpool, rfl⟩ := Option.map_eq_some_iff.1 hfinish
  obtain ⟨-, hperm⟩ := Pool.tasks_of_finish? hpool
  obtain ⟨hbuiltIn, hrequest⟩ := h.asked task (hperm.mem_iff.2 List.mem_cons_self)
  have hanswer := hbuiltIn.isLine_execute w hrequest x.link
  have hasked (task' : Task) (htask : task' ∈ pool.tasks) :
      task'.handler.IsBuiltIn ∧ SingleLine task'.request :=
    h.asked task' (hperm.mem_iff.2 (List.mem_cons_of_mem _ htask))
  show SingleLined (perform w task { x with pool })
  unfold perform
  cases task.slot with
  | none => exact ⟨h.builtIn, h.stored, hasked⟩
  | some id =>
    exact ⟨h.builtIn, h.stored.complete (singleLine_keptText hanswer) id, hasked⟩

/-- **What an exchange does by itself** leaves it in single lines. -/
theorem singleLined_step (h : SingleLined x) {event : ExchangeEvent}
    (hinner : event.isInner = true) : SingleLined (x.step event).2 := by
  cases event with
  | start =>
    show SingleLined (x.startTask?.getD x)
    cases hstart : x.startTask? with
    | none => exact h
    | some y => exact singleLined_startTask? h hstart
  | finish w place =>
    show SingleLined ((x.finishTask? w place).getD x)
    cases hfinish : x.finishTask? w place with
    | none => exact h
    | some y => exact singleLined_finishTask? h hfinish
  | link event => exact ⟨h.builtIn, h.stored, h.asked⟩
  | call w line capacity => cases hinner
  | submit id text => cases hinner
  | enqueue text => cases hinner
  | addEngine name engine database args => cases hinner
  | close => cases hinner
  | stopLink => cases hinner

/-- The free ids stay balanced as well. -/
theorem singleLined_run {own : List ExchangeEvent} (hown : ∀ event ∈ own, event.isInner = true)
    (hsound : x.store.Sound range) (h : SingleLined x) :
    (x.run own).2.store.Sound range ∧ SingleLined (x.run own).2 := by
  induction own generalizing x with
  | nil => exact ⟨hsound, h⟩
  | cons event own ih =>
    obtain ⟨hevent, hrest⟩ := List.forall_mem_cons.1 hown
    exact ih hrest (sound_after hsound (.event event)) (singleLined_step h hevent)

/-- An exchange is opened with nothing in it. -/
theorem singleLined_launch {s : Settings} {processors : Nat} {draw : UInt64}
    (h : launch s processors draw = .ok x) : SingleLined x := by
  obtain ⟨ids, pool, -, hpool, rfl⟩ := eq_of_launch h
  obtain ⟨-, hpool⟩ := Option.ite_none_right_eq_some.1 hpool
  cases hpool
  refine ⟨fun name handler hbound => ?_, fun id text hready => ?_, fun task htask => ?_⟩
  · rw [Std.ExtTreeMap.getElem?_empty] at hbound
    cases hbound
  · change (∅ : Std.ExtTreeMap RequestId StoredResult)[id]? = _ at hready
    rw [Std.ExtTreeMap.getElem?_empty] at hready
    cases hready
  · cases htask

end Exchange

end Switchboard
