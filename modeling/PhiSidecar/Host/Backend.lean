import PhiSidecar.V1.Types

/-!
# The default execution backend (`sidecar.cpp`: `DefaultInstanceExecutionBackend`)

One worker thread runs the tasks of a queue. Each function is one critical section on the mutex of
the backend's `State`: `execute`, the two of a `stop` whose wait ends in time (`requestStop`,
`stopped`), and those of the worker's loop (`take`, `finish` after the task, `exit`). A backend that
is built but not started has no worker.
-/

set_option autoImplicit false

namespace Phi.Host

open Phi.V1

universe u

/-- `State`, with the task that the worker is running. -/
structure Backend (α : Type u) where
  tasks : List α := []
  started : Bool := false
  stopRequested : Bool := false
  workerExited : Bool := true
  running : Option α := none

namespace Backend

variable {α : Type u} {b c : Backend α}

/-- A backend that `start` returned true for, with its worker in the loop. -/
def afterStart : Backend α := { started := true, workerExited := false }

def execute (b : Backend α) (task : α) : Backend α × Except Utf8String Unit :=
  if !b.started then (b, .error (lit "Execution backend not started"))
  else if b.stopRequested then (b, .error (lit "Execution backend is stopping"))
  else ({ b with tasks := b.tasks ++ [task] }, .ok ())

/-- The first half of `stop`. -/
def requestStop (b : Backend α) : Backend α := { b with stopRequested := true }

/-- The second half of `stop`, once the worker has left its loop. -/
def stopped (b : Backend α) : Backend α :=
  { b with started := false, stopRequested := false, tasks := [] }

/-- The worker takes the next task. -/
def take (b : Backend α) : Option (Backend α) :=
  match b.workerExited, b.running, b.tasks with
  | false, none, task :: tasks => some { b with tasks, running := some task }
  | _, _, _ => none

/-- The task returns. -/
def finish (b : Backend α) : Backend α := { b with running := none }

/-- The worker leaves its loop: only when it is told to stop and there is nothing left to run. -/
def exit (b : Backend α) : Option (Backend α) :=
  match b.workerExited, b.running, b.tasks, b.stopRequested with
  | false, none, [], true => some { b with workerExited := true }
  | _, _, _, _ => none

/-- What is accepted and not finished. -/
def pending (b : Backend α) : List α := b.running.toList ++ b.tasks

/-! ## Stopping discards nothing -/

/-- A worker that has left its loop left nothing behind, and nothing can be added after it. -/
structure Drained (b : Backend α) : Prop where
  pending : b.workerExited = true → b.pending = []
  closed : b.workerExited = true → b.started = true → b.stopRequested = true

theorem Drained.new : Drained ({} : Backend α) := ⟨fun _ => rfl, nofun⟩

theorem Drained.afterStart : Drained (afterStart : Backend α) := ⟨nofun, nofun⟩

/-- `execute` appends the task or changes nothing. -/
theorem execute_cases (b : Backend α) (task : α) :
    (b.execute task).2 = .ok () ∧ (b.execute task).1 = { b with tasks := b.tasks ++ [task] } ∧
        b.started = true ∧ b.stopRequested = false ∨
      (∃ error, (b.execute task).2 = .error error) ∧ (b.execute task).1 = b := by
  unfold execute
  by_cases h1 : b.started = true
  · by_cases h2 : b.stopRequested = true
    · exact .inr (by simp [h1, h2])
    · exact .inl (by simp [h1, h2])
  · exact .inr (by simp [h1])

theorem Drained.execute (h : b.Drained) (task : α) : (b.execute task).1.Drained := by
  rcases b.execute_cases task with ⟨-, he, hs, hr⟩ | ⟨-, he⟩
  · have hx : b.workerExited ≠ true := fun hx => by simp [h.closed hx hs] at hr
    rw [he]
    exact ⟨fun hx' => absurd hx' hx, fun hx' => absurd hx' hx⟩
  · rw [he]
    exact h

theorem Drained.requestStop (h : b.Drained) : b.requestStop.Drained := ⟨h.pending, fun _ _ => rfl⟩

theorem Drained.stopped (h : b.Drained) : b.stopped.Drained := by
  refine ⟨fun hx => ?_, nofun⟩
  have := h.pending hx
  simp only [Backend.pending, List.append_eq_nil_iff] at this
  simp [Backend.pending, Backend.stopped, this.1]

/-- What a worker takes is the front of the queue. -/
theorem take_cases (h : b.take = some c) : ∃ task tasks, b.workerExited = false ∧ b.running = none ∧
    b.tasks = task :: tasks ∧ c = { b with tasks, running := some task } := by
  unfold take at h
  split at h
  · next task tasks hx hr ht =>
    cases h
    exact ⟨task, tasks, hx, hr, ht, rfl⟩
  · cases h

theorem exit_cases (h : b.exit = some c) :
    b.pending = [] ∧ b.stopRequested = true ∧ c = { b with workerExited := true } := by
  unfold exit at h
  split at h
  · next hx hr ht hs =>
    cases h
    exact ⟨by simp [Backend.pending, hr, ht], hs, rfl⟩
  · cases h

theorem Drained.take (hb : b.take = some c) : c.Drained := by
  obtain ⟨task, tasks, hx, -, -, rfl⟩ := take_cases hb
  exact ⟨fun hx' => by simp [hx] at hx', fun hx' => by simp [hx] at hx'⟩

theorem Drained.finish (h : b.Drained) : b.finish.Drained := by
  refine ⟨fun hx => ?_, h.closed⟩
  have := h.pending hx
  simp only [Backend.pending, List.append_eq_nil_iff] at this
  simp [Backend.pending, Backend.finish, this.2]

theorem Drained.exit (hb : b.exit = some c) : c.Drained := by
  obtain ⟨hp, hs, rfl⟩ := exit_cases hb
  exact ⟨fun _ => hp, fun _ _ => hs⟩

/-- A stop that waited for the worker discards no task. -/
theorem Drained.stopped_pending (h : b.Drained) (hx : b.workerExited = true) :
    b.stopped.pending = b.pending := by
  have hp := h.pending hx
  simp only [Backend.pending, List.append_eq_nil_iff] at hp
  simp [Backend.pending, Backend.stopped, hp.1, hp.2]

end Backend

end Phi.Host
