import Switchboard.Proofs.Workers.Pool

/-!
# Threads at a pool

Posts come from any thread, every worker is a thread of its own, and so is the one that shuts the
pool down. None of them does its part in one go: the number of pending tasks is counted up before a
task is sent and counted down after it has ended, and the queue changes in between. This module
takes the parts apart and lets the threads take turns in any way:

* **`Crew`**: a pool with its counter and with the threads that are in the middle of something.
* **`Crew.step?`**, **`Crew.run`**: the moves of the threads, and any schedule of them. A move that
  has to wait at its turn is passed over.
* **`Makes`**: what a move can be, one rule for each (`makes_of_step?`). What each of these keeps,
  a schedule keeps (`run_induction`).
* **`Traced`**: where the accepted tasks are.
* **`Staffed`**: where the workers are, and what the counter counts.
* **`toil`**: the moves that the workers have left. Each of theirs is one of these
  (`toil_of_makes`), and they get stuck only when there is nothing left to do
  (`Staffed.done_of_stuck`).
-/

namespace Switchboard

/-- A pool with the threads at it. -/
structure Crew (τ : Type) where
  pool : Pool τ
  /-- What the threads have counted as pending. -/
  counter : Nat
  /-- The task of the post that holds the sending end, once it has been counted. -/
  posting : Option τ
  /-- Workers without a task. -/
  waiting : Nat
  /-- Workers whose task has ended and is still counted. -/
  settling : Nat
  /-- Workers that came to the end of the queue. -/
  gone : Nat

namespace Crew

variable {τ : Type}

/-- A new pool, whose workers all wait. -/
def hire (size : Nat) : Crew τ where
  pool := .ofSize size
  counter := 0
  posting := none
  waiting := max size 1
  settling := 0
  gone := 0

/-- How a task ends. Either way its worker goes on. -/
inductive Ending where
  | returned
  | panicked
  deriving DecidableEq, Repr

/-- What a thread can do at its turn. -/
inductive Move (τ : Type) where
  /-- A post takes hold of the sending end, finds out whether the pool is open, and counts. -/
  | enter (task : τ)
  /-- The post that holds the sending end sends its task and lets go. -/
  | send
  /-- A waiting worker takes the head of the queue. -/
  | start
  /-- The task at a place among the running ones ends. -/
  | finish (place : Nat) (ending : Ending)
  /-- A worker counts off its task and waits for the next one. -/
  | settle
  /-- A waiting worker finds the queue empty and the sending end gone. -/
  | leave
  /-- The sending end is taken away. -/
  | shut

/-- What can be told about a schedule. -/
inductive Note (τ : Type) where
  | accepted (task : τ)
  | refused (task : τ)
  | started (task : τ)
  | ended (task : τ) (ending : Ending)
  deriving DecidableEq, Repr

/-- Whether it is a worker that moves. -/
def Move.isWork : Move τ → Bool
  | start | finish _ _ | settle | leave => true
  | enter _ | send | shut => false

/-- One move, with what is to be told about it; none if it has to wait. Only one thread holds the
sending end. Sending fails when no worker is there to receive. -/
def step? (c : Crew τ) : Move τ → Option (List (Note τ) × Crew τ)
  | .enter task =>
    if c.posting.isSome then none
    else if c.pool.isOpen then some ([], { c with counter := c.counter + 1, posting := some task })
    else some ([.refused task], c)
  | .send =>
    c.posting.bind fun task =>
      if c.gone = c.pool.size then
        some ([.refused task], { c with counter := c.counter - 1, posting := none })
      else
        (c.pool.post? task).map fun pool => ([.accepted task], { c with pool, posting := none })
  | .start =>
    if c.waiting = 0 then none
    else
      c.pool.start?.map fun r =>
        ([.started r.1], { c with pool := r.2, waiting := c.waiting - 1 })
  | .finish place ending =>
    (c.pool.finish? place).map fun r =>
      ([.ended r.1 ending], { c with pool := r.2, settling := c.settling + 1 })
  | .settle =>
    if c.settling = 0 then none
    else
      some ([], { c with
        counter := c.counter - 1, settling := c.settling - 1, waiting := c.waiting + 1 })
  | .leave =>
    if c.waiting = 0 ∨ c.pool.isOpen = true ∨ c.pool.queue ≠ [] then none
    else some ([], { c with waiting := c.waiting - 1, gone := c.gone + 1 })
  | .shut => if c.posting.isSome then none else some ([], { c with pool := c.pool.close })

/-- A schedule, with all that is to be told about it. -/
def run (c : Crew τ) : List (Move τ) → List (Note τ) × Crew τ
  | [] => ([], c)
  | move :: moves =>
    match c.step? move with
    | none => c.run moves
    | some (notes, d) => (notes ++ (d.run moves).1, (d.run moves).2)

/-! The tasks that were accepted, started and ended, each in the order in which they were. -/

def accepted (notes : List (Note τ)) : List τ :=
  notes.filterMap fun | .accepted task => some task | _ => none

def started (notes : List (Note τ)) : List τ :=
  notes.filterMap fun | .started task => some task | _ => none

def ended (notes : List (Note τ)) : List τ :=
  notes.filterMap fun | .ended task _ => some task | _ => none

variable {c d : Crew τ} {move : Move τ} {notes notes' : List (Note τ)} {size : Nat}

@[simp] theorem accepted_append : accepted (notes ++ notes') = accepted notes ++ accepted notes' :=
  List.filterMap_append

@[simp] theorem started_append : started (notes ++ notes') = started notes ++ started notes' :=
  List.filterMap_append

/-! ## Moves -/

/-- What a move is told as, and what becomes of the crew. -/
inductive Makes (c : Crew τ) : Move τ → List (Note τ) → Crew τ → Prop where
  | entered {task : τ} (hfree : c.posting = none) (hopen : c.pool.isOpen = true) :
      Makes c (.enter task) [] { c with counter := c.counter + 1, posting := some task }
  | refused {task : τ} (hfree : c.posting = none) (hclosed : c.pool.isOpen = false) :
      Makes c (.enter task) [.refused task] c
  | stranded {task : τ} (hposting : c.posting = some task) (hgone : c.gone = c.pool.size) :
      Makes c .send [.refused task] { c with counter := c.counter - 1, posting := none }
  | sent {task : τ} {pool : Pool τ} (hposting : c.posting = some task)
      (hpost : c.pool.post? task = some pool) :
      Makes c .send [.accepted task] { c with pool, posting := none }
  | started {task : τ} {pool : Pool τ} (hwaiting : c.waiting ≠ 0)
      (hstart : c.pool.start? = some (task, pool)) :
      Makes c .start [.started task] { c with pool, waiting := c.waiting - 1 }
  | finished {place : Nat} {ending : Ending} {task : τ} {pool : Pool τ}
      (hfinish : c.pool.finish? place = some (task, pool)) :
      Makes c (.finish place ending) [.ended task ending]
        { c with pool, settling := c.settling + 1 }
  | settled (hsettling : c.settling ≠ 0) :
      Makes c .settle []
        { c with counter := c.counter - 1, settling := c.settling - 1, waiting := c.waiting + 1 }
  | left (hwaiting : c.waiting ≠ 0) (hclosed : c.pool.isOpen = false)
      (hqueue : c.pool.queue = []) :
      Makes c .leave [] { c with waiting := c.waiting - 1, gone := c.gone + 1 }
  | shut (hfree : c.posting = none) : Makes c .shut [] { c with pool := c.pool.close }

theorem makes_of_step? (h : c.step? move = some (notes, d)) : Makes c move notes d := by
  cases move with
  | enter task =>
    simp only [step?] at h
    split at h
    · cases h
    · next hfree =>
      rw [Option.isSome_iff_ne_none, not_not] at hfree
      split at h
      · next hopen =>
        cases h
        exact .entered hfree hopen
      · next hclosed =>
        cases h
        exact .refused hfree (Bool.eq_false_iff.2 hclosed)
  | send =>
    obtain ⟨task, hposting, h⟩ := Option.bind_eq_some_iff.1 h
    split at h
    · next hgone =>
      cases h
      exact .stranded hposting hgone
    · obtain ⟨pool, hpost, heq⟩ := Option.map_eq_some_iff.1 h
      cases heq
      exact .sent hposting hpost
  | start =>
    simp only [step?] at h
    split at h
    · cases h
    · next hwaiting =>
      obtain ⟨r, hstart, heq⟩ := Option.map_eq_some_iff.1 h
      cases heq
      exact .started hwaiting hstart
  | finish place ending =>
    obtain ⟨r, hfinish, heq⟩ := Option.map_eq_some_iff.1 h
    cases heq
    exact .finished hfinish
  | settle =>
    simp only [step?] at h
    split at h
    · cases h
    · next hsettling =>
      cases h
      exact .settled hsettling
  | leave =>
    simp only [step?] at h
    split at h
    · cases h
    · next hleaves =>
      cases h
      rw [not_or, not_or, Bool.not_eq_true, not_not] at hleaves
      exact .left hleaves.1 hleaves.2.1 hleaves.2.2
  | shut =>
    simp only [step?] at h
    split at h
    · cases h
    · next hfree =>
      cases h
      rw [Option.isSome_iff_ne_none, not_not] at hfree
      exact .shut hfree

/-- What every move keeps, a schedule keeps. -/
theorem run_induction {P : List (Note τ) → Crew τ → Prop}
    (hmove : ∀ {notes notes' c d move}, P notes c → Makes c move notes' d → P (notes ++ notes') d)
    (h : P notes c) (moves : List (Move τ)) : P (notes ++ (c.run moves).1) (c.run moves).2 := by
  induction moves generalizing notes c with
  | nil =>
    show P (notes ++ []) c
    rw [List.append_nil]
    exact h
  | cons move moves ih =>
    unfold run
    split
    · exact ih h
    · next notes' d hstep =>
      show P (notes ++ (notes' ++ (d.run moves).1)) (d.run moves).2
      rw [← List.append_assoc]
      exact ih (hmove h (makes_of_step? hstep))

/-! ## Where the tasks are -/

/-- The queue is what was accepted and not started, and what is running was started and has not
ended. -/
structure Traced (notes : List (Note τ)) (c : Crew τ) : Prop where
  accepted_eq : accepted notes = started notes ++ c.pool.queue
  started_perm : (started notes).Perm (ended notes ++ c.pool.running)

theorem traced_hire (size : Nat) : Traced [] (hire size : Crew τ) :=
  ⟨rfl, .nil⟩

theorem Traced.of_makes (h : Traced notes c) (hmakes : Makes c move notes' d) :
    Traced (notes ++ notes') d := by
  obtain ⟨haccepted, hstarted⟩ := h
  cases hmakes with
  | entered hfree hopen | settled hsettling | left hwaiting hclosed hqueue | shut hfree =>
    rw [List.append_nil]
    exact ⟨haccepted, hstarted⟩
  | refused hfree hclosed | stranded hposting hgone =>
    exact ⟨by simpa [accepted, started] using haccepted, by simpa [started, ended] using hstarted⟩
  | @sent task pool hposting hpost =>
    obtain ⟨hopen, rfl⟩ := Pool.post?_eq_some_iff.1 hpost
    refine ⟨?_, by simpa [started, ended] using hstarted⟩
    -- the task is behind those that were accepted, and behind those that wait
    rw [accepted_append, started_append, haccepted, List.append_assoc]
    simp [accepted, started]
  | @started task pool hwaiting hstart =>
    obtain ⟨rest, hqueue, hfree, rfl⟩ := Pool.start?_eq_some_iff.1 hstart
    constructor
    · -- the first task that waits is the next one to start
      rw [accepted_append, started_append, haccepted, hqueue, List.append_assoc]
      simp [accepted, started]
    · have hjoined := hstarted.append_right [task]
      simpa [started, ended] using hjoined
  | @finished place ending task pool hfinish =>
    have hrunning := Pool.running_of_finish? hfinish
    obtain ⟨htask, rfl⟩ := Pool.finish?_eq_some_iff.1 hfinish
    refine ⟨by simpa [accepted, started] using haccepted, ?_⟩
    -- the task is no longer among the running ones, and has ended
    have hmoved :
        (started notes).Perm (ended notes ++ [task] ++ c.pool.running.eraseIdx place) := by
      rw [List.append_assoc]
      exact hstarted.trans (hrunning.append_left _)
    simpa [started, ended] using hmoved

theorem Traced.run (h : Traced notes c) (moves : List (Move τ)) :
    Traced (notes ++ (c.run moves).1) (c.run moves).2 :=
  run_induction of_makes h moves

/-- With no task left in the pool, all those accepted were started in their order and have ended. -/
theorem Traced.ended_of_isIdle (h : Traced notes c) (hidle : c.pool.isIdle = true) :
    accepted notes = started notes ∧ (accepted notes).Perm (ended notes) := by
  obtain ⟨haccepted, hstarted⟩ := h
  obtain ⟨hqueue, hrunning⟩ := Pool.isIdle_iff.1 hidle
  rw [hqueue, List.append_nil] at haccepted
  rw [hrunning, List.append_nil] at hstarted
  exact ⟨haccepted, haccepted ▸ hstarted⟩

/-! ## Where the workers are -/

/-- Every worker is somewhere, and the counter counts those that have a task, with the tasks that
none has. -/
structure Staffed (size : Nat) (c : Crew τ) : Prop where
  size_eq : c.pool.size = max size 1
  workers_eq : c.waiting + c.pool.running.length + c.settling + c.gone = c.pool.size
  /-- A post in the middle counts, and so does a worker that has not counted off its task. -/
  counter_eq : c.counter = c.pool.pending + c.settling + c.posting.toList.length
  drained : c.gone ≠ 0 → c.pool.isOpen = false ∧ c.pool.queue = []
  /-- The sending end is there as long as a post holds it. -/
  held : c.posting ≠ none → c.pool.isOpen = true

theorem staffed_hire (size : Nat) : Staffed size (hire size : Crew τ) where
  size_eq := rfl
  workers_eq := rfl
  counter_eq := rfl
  drained h := absurd rfl h
  held h := absurd rfl h

namespace Staffed

theorem gone_eq_zero (h : Staffed size c) (hopen : c.pool.isOpen = true) : c.gone = 0 := by
  by_contra hgone
  have hclosed := (h.drained hgone).1
  rw [hopen] at hclosed
  cases hclosed

theorem posting_eq_none (h : Staffed size c) (hclosed : c.pool.isOpen = false) :
    c.posting = none := by
  by_contra hposting
  have hopen := h.held hposting
  rw [hclosed] at hopen
  cases hopen

/-- A post that was counted finds somebody to receive its task. -/
theorem not_stranded (h : Staffed size c) {task : τ} (hposting : c.posting = some task) :
    c.gone ≠ c.pool.size := by
  have hopen : c.pool.isOpen = true := h.held (by rw [hposting]; exact Option.some_ne_none task)
  rw [h.gone_eq_zero hopen]
  exact Nat.ne_of_lt c.pool.size_pos

theorem of_makes (h : Staffed size c) (hmakes : Makes c move notes d) : Staffed size d := by
  have hcounter := h.counter_eq
  have hworkers := h.workers_eq
  cases hmakes with
  | refused hfree hclosed => exact h
  | stranded hposting hgone => exact absurd hgone (h.not_stranded hposting)
  | @entered task hfree hopen =>
    refine { h with counter_eq := ?_, held := fun _ => hopen }
    rw [hfree] at hcounter
    exact congrArg (· + 1) hcounter
  | @sent task pool hposting hpost =>
    obtain ⟨hopen, rfl⟩ := Pool.post?_eq_some_iff.1 hpost
    refine ⟨h.size_eq, hworkers, ?_, fun hgone => ?_, fun hnone => absurd rfl hnone⟩
    · -- what the post counted for is now in the queue
      rw [hposting] at hcounter
      simp [Pool.pending] at hcounter ⊢
      omega
    · exact absurd (h.gone_eq_zero hopen) hgone
  | @started task pool hwaiting hstart =>
    obtain ⟨rest, hqueue, hfree, rfl⟩ := Pool.start?_eq_some_iff.1 hstart
    refine ⟨h.size_eq, ?_, ?_, fun hgone => ?_, h.held⟩
    · simp at hworkers ⊢
      omega
    · simp [Pool.pending, hqueue] at hcounter ⊢
      omega
    · have hempty := (h.drained hgone).2
      rw [hqueue] at hempty
      cases hempty
  | @finished place ending task pool hfinish =>
    have hlength := (Pool.running_of_finish? hfinish).length_eq
    obtain ⟨htask, rfl⟩ := Pool.finish?_eq_some_iff.1 hfinish
    refine ⟨h.size_eq, ?_, ?_, h.drained, h.held⟩
    · simp at hworkers hlength ⊢
      omega
    · simp [Pool.pending] at hcounter hlength ⊢
      omega
  | settled hsettling =>
    refine { h with workers_eq := ?_, counter_eq := ?_ }
    · show c.waiting + 1 + c.pool.running.length + (c.settling - 1) + c.gone = c.pool.size
      omega
    · show c.counter - 1 = c.pool.pending + (c.settling - 1) + c.posting.toList.length
      omega
  | left hwaiting hclosed hqueue =>
    refine { h with workers_eq := ?_, drained := fun _ => ⟨hclosed, hqueue⟩ }
    show c.waiting - 1 + c.pool.running.length + c.settling + (c.gone + 1) = c.pool.size
    omega
  | shut hfree =>
    refine { h with drained := fun hgone => ⟨rfl, (h.drained hgone).2⟩, held := fun hheld => ?_ }
    exact absurd hfree hheld

theorem run (h : Staffed size c) (moves : List (Move τ)) : Staffed size (c.run moves).2 :=
  @run_induction τ c [] (fun _ => Staffed size) of_makes h moves

/-- When all workers are gone nothing is left. -/
theorem done_of_gone (h : Staffed size c) (hgone : c.gone = c.pool.size) :
    c.pool.isIdle = true ∧ c.counter = 0 := by
  have hpos := c.pool.size_pos
  have hworkers := h.workers_eq
  have hcounter := h.counter_eq
  obtain ⟨hclosed, hqueue⟩ := h.drained (by omega)
  have hrunning : c.pool.running = [] := List.length_eq_zero_iff.1 (by omega)
  rw [h.posting_eq_none hclosed, Pool.pending, hqueue, hrunning] at hcounter
  refine ⟨Pool.isIdle_iff.2 ⟨hqueue, hrunning⟩, ?_⟩
  simp at hcounter
  omega

end Staffed

/-! ## What the workers have left -/

/-- The moves that the workers have left until all of them are gone. Each task is started, ends and
is counted off. -/
def toil (c : Crew τ) : Nat :=
  3 * c.pool.pending + 2 * c.settling + c.waiting

theorem toil_of_makes (h : Makes c move notes d) (hwork : move.isWork = true) :
    d.toil + 1 = c.toil := by
  cases h with
  | entered hfree hopen | refused hfree hclosed | stranded hposting hgone | sent hposting hpost
  | shut hfree => cases hwork
  | started hwaiting hstart =>
    obtain ⟨rest, hqueue, hfree, rfl⟩ := Pool.start?_eq_some_iff.1 hstart
    simp [toil, Pool.pending, hqueue]
    omega
  | finished hfinish =>
    have hlength := (Pool.running_of_finish? hfinish).length_eq
    obtain ⟨htask, rfl⟩ := Pool.finish?_eq_some_iff.1 hfinish
    simp [toil, Pool.pending] at hlength ⊢
    omega
  | settled hsettling =>
    simp [toil]
    omega
  | left hwaiting hclosed hqueue =>
    simp [toil]
    omega

/-- No worker can move. -/
def Stuck (c : Crew τ) : Prop :=
  ∀ move : Move τ, move.isWork = true → c.step? move = none

theorem Stuck.running_eq_nil (h : Stuck c) : c.pool.running = [] := by
  cases hrunning : c.pool.running with
  | nil => rfl
  | cons task rest =>
    -- the first task could end
    have hnone := h (.finish 0 .returned) rfl
    simp [step?, Pool.finish?, hrunning] at hnone

theorem Stuck.settling_eq_zero (h : Stuck c) : c.settling = 0 := by
  by_contra hsettling
  have hnone := h .settle rfl
  simp [step?, hsettling] at hnone

/-- **Workers get stuck only when there is nothing left to do**: no task is left, and unless the
pool is open all of them are gone. -/
theorem Staffed.done_of_stuck (h : Staffed size c) (hstuck : Stuck c) :
    c.pool.queue = [] ∧ (c.pool.isOpen = false → c.gone = c.pool.size) := by
  have hrunning := hstuck.running_eq_nil
  have hsettling := hstuck.settling_eq_zero
  have hworkers := h.workers_eq
  rw [hrunning, hsettling, List.length_nil] at hworkers
  have hqueue : c.pool.queue = [] := by
    by_cases hgone : c.gone = 0
    · cases hqueue : c.pool.queue with
      | nil => rfl
      | cons task rest =>
        -- all workers wait, and one of them could take the task
        have hpos := c.pool.size_pos
        have hwaiting : c.waiting ≠ 0 := by omega
        have hnone := hstuck .start rfl
        simp [step?, Pool.start?, hqueue, hrunning, hwaiting, hpos] at hnone
    · exact (h.drained hgone).2
  refine ⟨hqueue, fun hclosed => ?_⟩
  have hnone := hstuck .leave rfl
  simp [step?, hqueue, hclosed] at hnone
  omega

/-! ## Shutting down -/

/-- The pool is closed, and no post is left that found it open. -/
structure Shut (c : Crew τ) : Prop where
  closed : c.pool.isOpen = false
  free : c.posting = none

theorem Shut.of_makes (h : Shut c) (hmakes : Makes c move notes d) :
    Shut d ∧ accepted notes = [] := by
  obtain ⟨hclosed, hfree⟩ := h
  cases hmakes with
  | entered hfree hopen =>
    rw [hclosed] at hopen
    cases hopen
  | stranded hposting hgone | sent hposting hpost =>
    rw [hfree] at hposting
    cases hposting
  | refused hfree hclosed => exact ⟨⟨hclosed, hfree⟩, rfl⟩
  | started hwaiting hstart => exact ⟨⟨(Pool.isOpen_of_start? hstart).trans hclosed, hfree⟩, rfl⟩
  | finished hfinish => exact ⟨⟨(Pool.isOpen_of_finish? hfinish).trans hclosed, hfree⟩, rfl⟩
  | settled hsettling => exact ⟨⟨hclosed, hfree⟩, rfl⟩
  | left hwaiting hclosed hqueue => exact ⟨⟨hclosed, hfree⟩, rfl⟩
  | shut hfree => exact ⟨⟨rfl, hfree⟩, rfl⟩

theorem Shut.run (h : Shut c) (moves : List (Move τ)) :
    Shut (c.run moves).2 ∧ accepted (c.run moves).1 = [] := by
  refine @run_induction τ c [] (fun notes c => Shut c ∧ accepted notes = []) ?_ ⟨h, rfl⟩ moves
  rintro notes notes' c d move ⟨hshut, hnone⟩ hmakes
  obtain ⟨hshut', hnone'⟩ := hshut.of_makes hmakes
  refine ⟨hshut', ?_⟩
  rw [accepted_append, hnone, hnone']
  rfl

theorem Shut.refuses (h : Shut c) (task : τ) :
    c.step? (.enter task) = some ([.refused task], c) := by
  simp [step?, h.closed, h.free]

/-- After the pool was closed the tasks that wait then are started, and no others. -/
theorem Traced.started_of_shut (h : Traced notes c) (hshut : Shut c) (moves : List (Move τ)) :
    started (c.run moves).1 ++ (c.run moves).2.pool.queue = c.pool.queue := by
  have haccepted := (h.run moves).accepted_eq
  rw [accepted_append, started_append, (hshut.run moves).2, List.append_nil, h.accepted_eq,
    List.append_assoc] at haccepted
  exact (List.append_cancel_left haccepted).symm

/-- **Every accepted task runs once**, in whatever way the threads take turns.

* The tasks are started in the order in which they were accepted, those in the queue being the next
  ones, and of the started ones each has ended or is running.
* No worker gets lost; they leave a closed pool with an empty queue only.
* The counter is the number of pending tasks, but for the threads in the middle of counting.
* A closed pool refuses every post, and starts what waits in it and nothing else.
* When all workers are gone, which is what a shutdown waits for, every accepted task has ended and
  none is counted.
* Every move of a worker brings the workers nearer to the end. They get stuck only when every
  accepted task has ended, and in a closed pool only when all of them are gone. -/
theorem accepted_tasks_run_once {size : Nat} {moves : List (Move τ)} {notes : List (Note τ)}
    {c : Crew τ} (h : (hire size).run moves = (notes, c)) :
    (accepted notes = started notes ++ c.pool.queue ∧
      (started notes).Perm (ended notes ++ c.pool.running)) ∧
    (c.waiting + c.pool.running.length + c.settling + c.gone = max size 1 ∧
      (c.gone ≠ 0 → c.pool.isOpen = false ∧ c.pool.queue = [])) ∧
    c.counter = c.pool.pending + c.settling + c.posting.toList.length ∧
    (c.pool.isOpen = false → ∀ later,
      accepted (c.run later).1 = [] ∧
      started (c.run later).1 ++ (c.run later).2.pool.queue = c.pool.queue ∧
      ∀ task, (c.run later).2.step? (.enter task) = some ([.refused task], (c.run later).2)) ∧
    (c.gone = c.pool.size →
      accepted notes = started notes ∧ (accepted notes).Perm (ended notes) ∧ c.counter = 0) ∧
    (∀ move notes' d, move.isWork = true → c.step? move = some (notes', d) → d.toil < c.toil) ∧
    (Stuck c → (accepted notes).Perm (ended notes) ∧
      (c.pool.isOpen = false → c.gone = c.pool.size)) := by
  have htraced : Traced notes c := by
    have hrun := (traced_hire size).run moves
    rw [h, List.nil_append] at hrun
    exact hrun
  have hstaffed : Staffed size c := by
    have hrun := (staffed_hire size).run moves
    rw [h] at hrun
    exact hrun
  refine ⟨⟨htraced.accepted_eq, htraced.started_perm⟩,
    ⟨hstaffed.workers_eq.trans hstaffed.size_eq, hstaffed.drained⟩, hstaffed.counter_eq,
    fun hclosed later => ?_, fun hgone => ?_, fun move notes' d hwork hstep => ?_, fun hstuck => ?_⟩
  · have hshut : Shut c := ⟨hclosed, hstaffed.posting_eq_none hclosed⟩
    obtain ⟨hlater, hnone⟩ := hshut.run later
    exact ⟨hnone, htraced.started_of_shut hshut later, hlater.refuses⟩
  · obtain ⟨hidle, hcounter⟩ := hstaffed.done_of_gone hgone
    obtain ⟨hstarted, hended⟩ := htraced.ended_of_isIdle hidle
    exact ⟨hstarted, hended, hcounter⟩
  · have htoil := toil_of_makes (makes_of_step? hstep) hwork
    omega
  · obtain ⟨hqueue, hgone⟩ := hstaffed.done_of_stuck hstuck
    have hidle := Pool.isIdle_iff.2 ⟨hqueue, hstuck.running_eq_nil⟩
    exact ⟨(htraced.ended_of_isIdle hidle).2, hgone⟩

/-- One worker, though none was asked for. Its first task panics, after the pool was closed; the
second one is still run, and a third one refused. -/
theorem accepted_tasks_run_once_past_a_panic :
    let moves : List (Move Nat) :=
      [.enter 1, .send, .enter 2, .send, .start, .shut, .finish 0 .panicked, .settle, .enter 3,
        .start, .finish 0 .returned, .settle, .leave]
    ((hire 0).run moves).1 =
        [.accepted 1, .accepted 2, .started 1, .ended 1 .panicked, .refused 3, .started 2,
          .ended 2 .returned] ∧
      ((hire 0).run moves).2.gone = 1 ∧ ((hire 0).run moves).2.counter = 0 := by
  intro moves
  have hgone : ((hire 0).run moves).2.gone = ((hire 0).run moves).2.pool.size := rfl
  obtain ⟨-, -, -, -, hdone, -⟩ := accepted_tasks_run_once (Eq.refl ((hire 0).run moves))
  exact ⟨rfl, rfl, (hdone hgone).2.2⟩

end Crew

end Switchboard
