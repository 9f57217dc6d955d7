/-!
# Workers

A fixed number of workers and a queue of tasks. A free worker takes the head of the queue, works
on it and finishes. Closing the pool refuses further tasks; those accepted are still worked off.
-/

namespace Switchboard

/-- A pool of workers for tasks of type `τ`. -/
structure Pool (τ : Type) where
  /-- Number of workers, at least one. -/
  size : Nat
  size_pos : 0 < size := by omega
  /-- Accepted tasks that no worker has taken, oldest first. -/
  queue : List τ
  /-- Tasks being worked on, oldest first. -/
  running : List τ
  isOpen : Bool

namespace Pool

variable {τ : Type}

/-- An idle pool; a request for no workers gets one. -/
def ofSize (size : Nat) : Pool τ where
  size := max size 1
  queue := []
  running := []
  isOpen := true

/-- The most workers there can be: each takes a handle of 24 bytes, and all handles together lie in
half of the address space. -/
def maxSize : Nat := (UInt64.size / 2 - 1) / 24

/-- An idle pool, unless it would have too many workers. -/
def ofSize? (size : Nat) : Option (Pool τ) :=
  if size ≤ maxSize then some (ofSize size) else none

/-- Accepts a task, unless the pool is closed. -/
def post? (task : τ) (p : Pool τ) : Option (Pool τ) :=
  if p.isOpen then some { p with queue := p.queue ++ [task] } else none

/-- A free worker takes the head of the queue. -/
def start? (p : Pool τ) : Option (τ × Pool τ) :=
  match p.queue with
  | [] => none
  | task :: rest =>
    if p.running.length < p.size then
      some (task, { p with queue := rest, running := p.running ++ [task] })
    else none

/-- The worker with the task at place `i` of those being worked on is done with it. -/
def finish? (i : Nat) (p : Pool τ) : Option (τ × Pool τ) :=
  p.running[i]?.map fun task => (task, { p with running := p.running.eraseIdx i })

/-- Refuses further tasks. -/
def close (p : Pool τ) : Pool τ :=
  { p with isOpen := false }

/-- Number of tasks accepted and not done. -/
def pending (p : Pool τ) : Nat :=
  p.queue.length + p.running.length

/-- Whether all accepted tasks are done. -/
def isIdle (p : Pool τ) : Bool :=
  p.pending == 0

/-! ## Progress -/

/-- What is left to do: two steps for a queued task, one for a running one. -/
def effort (p : Pool τ) : Nat :=
  2 * p.queue.length + p.running.length

theorem effort_of_start? {p q : Pool τ} {task : τ} (h : p.start? = some (task, q)) :
    q.effort + 1 = p.effort := by
  unfold start? at h
  split at h
  · cases h
  · next hq =>
    split at h
    · cases h; simp [effort, hq]; omega
    · cases h

theorem effort_of_finish? {p q : Pool τ} {task : τ} {i : Nat}
    (h : p.finish? i = some (task, q)) : q.effort + 1 = p.effort := by
  simp only [finish?, Option.map_eq_some_iff, Prod.mk.injEq] at h
  obtain ⟨t, ht, rfl, rfl⟩ := h
  have hi : i < p.running.length := by
    rw [List.getElem?_eq_some_iff] at ht; exact ht.1
  simp only [effort, List.length_eraseIdx, hi, ↓reduceIte]
  omega

end Pool

end Switchboard
