import Mathlib.Data.List.Perm.Basic
import Switchboard.Workers

/-!
# What a pool does with its tasks

Each operation of a pool is inverted once: what it was given and what it leaves. The tasks that are
accepted and not done are then followed as one collection (`Pool.tasks`), to which a post adds one
and from which a worker that is done takes one.
-/

namespace Switchboard.Pool

variable {τ : Type} {p q : Pool τ} {task : τ} {i : Nat}

/-! ## Operations -/

theorem post?_eq_none_iff : p.post? task = none ↔ p.isOpen = false := by
  simp only [post?, ite_eq_right_iff, reduceCtorEq, imp_false, Bool.not_eq_true]

/-- A task that is accepted joins the queue behind the others. -/
theorem post?_eq_some_iff :
    p.post? task = some q ↔ p.isOpen = true ∧ { p with queue := p.queue ++ [task] } = q := by
  simp only [post?, Option.ite_none_right_eq_some, Option.some.injEq]

/-- The head of the queue joins the running tasks behind the others. -/
theorem start?_eq_some_iff :
    p.start? = some (task, q) ↔ ∃ rest, p.queue = task :: rest ∧ p.running.length < p.size ∧
      { p with queue := rest, running := p.running ++ [task] } = q := by
  unfold start?
  cases p.queue with
  | nil => simp
  | cons head rest =>
    simp only [Option.ite_none_right_eq_some, Option.some.injEq, Prod.mk.injEq, List.cons.injEq]
    constructor
    · rintro ⟨hfree, rfl, rfl⟩
      exact ⟨rest, ⟨rfl, rfl⟩, hfree, rfl⟩
    · rintro ⟨_, ⟨rfl, rfl⟩, hfree, rfl⟩
      exact ⟨hfree, rfl, rfl⟩

theorem finish?_eq_some_iff :
    p.finish? i = some (task, q) ↔
      p.running[i]? = some task ∧ { p with running := p.running.eraseIdx i } = q := by
  simp only [finish?, Option.map_eq_some_iff, Prod.mk.injEq]
  constructor
  · rintro ⟨t, ht, rfl, rfl⟩
    exact ⟨ht, rfl⟩
  · rintro ⟨htask, rfl⟩
    exact ⟨task, htask, rfl, rfl⟩

theorem isOpen_of_start? (h : p.start? = some (task, q)) : q.isOpen = p.isOpen := by
  obtain ⟨rest, -, -, rfl⟩ := start?_eq_some_iff.1 h
  rfl

theorem isOpen_of_finish? (h : p.finish? i = some (task, q)) : q.isOpen = p.isOpen := by
  obtain ⟨-, rfl⟩ := finish?_eq_some_iff.1 h
  rfl

theorem isIdle_iff : p.isIdle = true ↔ p.queue = [] ∧ p.running = [] := by
  simp only [isIdle, pending, beq_iff_eq, Nat.add_eq_zero_iff, List.length_eq_zero_iff]

/-! ## Accepted tasks -/

/-- The accepted tasks that are not done. -/
def tasks (p : Pool τ) : List τ :=
  p.queue ++ p.running

theorem tasks_of_post? (h : p.post? task = some q) : q.tasks.Perm (task :: p.tasks) := by
  obtain ⟨-, rfl⟩ := post?_eq_some_iff.1 h
  rw [tasks, tasks, List.append_assoc]
  exact List.perm_middle

theorem tasks_of_start? (h : p.start? = some (task, q)) : q.tasks.Perm p.tasks := by
  obtain ⟨rest, hqueue, -, rfl⟩ := start?_eq_some_iff.1 h
  rw [tasks, tasks, hqueue, ← List.append_assoc]
  exact List.perm_append_singleton _ _

theorem running_of_finish? (h : p.finish? i = some (task, q)) :
    p.running.Perm (task :: q.running) := by
  obtain ⟨htask, rfl⟩ := finish?_eq_some_iff.1 h
  obtain ⟨hlt, rfl⟩ := List.getElem?_eq_some_iff.1 htask
  exact (List.getElem_cons_eraseIdx_perm hlt).symm

theorem tasks_of_finish? (h : p.finish? i = some (task, q)) :
    p.running[i]? = some task ∧ p.tasks.Perm (task :: q.tasks) := by
  have hrunning := running_of_finish? h
  obtain ⟨htask, rfl⟩ := finish?_eq_some_iff.1 h
  exact ⟨htask, (hrunning.append_left p.queue).trans List.perm_middle⟩

end Switchboard.Pool
