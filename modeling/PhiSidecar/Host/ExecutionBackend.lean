import Mathlib.Logic.Function.Basic
import PhiSidecar.Lib.Machine
import PhiSidecar.V1.Types

/-!
# The execution backend over start cycles (`sidecar.cpp`: `DefaultInstanceExecutionBackend`)

`Host.Backend` is one cycle whose `stop` ends in time. Here one thread calls `start` and `stop` one
after another, any number of threads call `execute`, and a `stop` may time out: its worker is
abandoned with its `State`, and the backend goes on with a fresh one. `State` objects are numbered
in the order they are made, and workers in the order their threads are. A call is one action for
each critical section, and in `start` one for each write another thread can see.

What a `Worker` says about its cycle is ghost state, and so are `accepted`, `refused` and `serving`
of the backend.
-/

set_option autoImplicit false

namespace Phi.Host

open Phi.V1

universe u

namespace DefaultInstanceExecutionBackend

section
variable (α : Type u)

structure State where
  tasks : List α := []
  started : Bool := false
  stopRequested : Bool := false
  workerExited : Bool := true
  /-- The worker of its latest cycle (ghost). -/
  worker : Nat := 0

/-- Where a worker is in `run`. -/
inductive Pc
  /-- At the lock of the loop. -/
  | loop
  | running (task : α)
  /-- Behind the loop. -/
  | leaving
  | exited

structure Worker where
  state : Nat
  pc : Pc α := .loop
  accepted : List α := []
  begun : List α := []
  ended : List α := []
  /-- What the `stop` of this cycle returned. -/
  stopResult : Option Bool := none

end

/-- Where the lifecycle caller is. A `stop` holds its `State` and, if it is joinable, its thread. -/
inductive Caller
  | idle
  /-- In `start`, in front of the creation of the thread. -/
  | startThread
  /-- In `start`, in front of the assignment to `started`. -/
  | startFlag
  | stopWait (state thread : Nat)
  | stopReplace (state thread : Nat)
  | stopJoin (state thread : Nat)
  | stopClear (state : Nat) (thread : Option Nat)

end DefaultInstanceExecutionBackend

open DefaultInstanceExecutionBackend in
structure DefaultInstanceExecutionBackend (α : Type u) where
  states : Nat → State α := fun _ => {}
  /-- `m_state`. -/
  current : Nat := 0
  /-- `m_thread`, if it is joinable. -/
  thread : Option Nat := none
  workers : List (Worker α) := []
  /-- The threads of the `AbandonedThreadRegistry`. -/
  abandoned : List Nat := []
  caller : Caller := .idle
  /-- Calls of `execute` between the copy of `m_state` and the lock. -/
  executing : List (Nat × α) := []
  /-- What the last `start` or `stop` returned. -/
  result : Except Utf8String Unit := .ok ()
  accepted : List α := []
  refused : List Utf8String := []
  /-- From a successful `start` to the moment stop is requested. -/
  serving : Bool := false

namespace DefaultInstanceExecutionBackend

variable {α : Type u}

inductive Act (α : Type u)
  /-- `execute` up to the copy of `m_state`; `none` is an empty function. -/
  | execute (task : Option α)
  /-- The call at a position of `executing` takes the lock. -/
  | lock (k : Nat)
  | start
  | createThread (failure : Option Bytes)
  | setStarted
  | stop
  /-- `wait_for` returns. -/
  | waited
  | join
  | clear
  | replace
  /-- The next step of a worker; a task that throws returns too. -/
  | work (i : Nat)

/-- The thread has come to its end. -/
def Worker.returned (w : Worker α) : Bool := match w.pc with
  | .exited => true
  | .loop | .running _ | .leaving => false

/-- The task that is being run. -/
def Pc.task : Pc α → List α
  | running task => [task]
  | loop | leaving | exited => []

def setState (s : DefaultInstanceExecutionBackend α) (k : Nat) (state : State α) :
    DefaultInstanceExecutionBackend α :=
  { s with states := Function.update s.states k state }

def setWorker (s : DefaultInstanceExecutionBackend α) (i : Nat) (w : Worker α) :
    DefaultInstanceExecutionBackend α :=
  { s with workers := s.workers.set i w }

def modifyWorker (s : DefaultInstanceExecutionBackend α) (i : Nat) (f : Worker α → Worker α) :
    DefaultInstanceExecutionBackend α :=
  { s with workers := s.workers.modify i f }

/-- `*m_state`. -/
def state (s : DefaultInstanceExecutionBackend α) : State α := s.states s.current

/-! ## `execute` -/

def refuse (s : DefaultInstanceExecutionBackend α) (error : Utf8String) :
    DefaultInstanceExecutionBackend α :=
  { s with refused := s.refused ++ [error] }

/-- The critical section of `execute`, on the `State` numbered `k`. -/
def push (s : DefaultInstanceExecutionBackend α) (k : Nat) (task : α) :
    DefaultInstanceExecutionBackend α :=
  let state := s.states k
  if !state.started then s.refuse (lit "Execution backend not started")
  else if state.stopRequested then s.refuse (lit "Execution backend is stopping")
  else
    { s with accepted := s.accepted ++ [task] }
      |>.setState k { state with tasks := state.tasks ++ [task] }
      |>.modifyWorker state.worker fun w => { w with accepted := w.accepted ++ [task] }

/-! ## `start` and `stop` -/

def start (s : DefaultInstanceExecutionBackend α) : DefaultInstanceExecutionBackend α :=
  if s.thread.isSome then { s with result := .error (lit "Execution backend thread still active") }
  else if s.state.started then { s with result := .ok (), serving := true }
  else
    { s with caller := .startThread }
      |>.setState s.current { s.state with stopRequested := false, workerExited := false }

def createThread (s : DefaultInstanceExecutionBackend α) (failure : Option Bytes) :
    DefaultInstanceExecutionBackend α :=
  match failure with
  | none =>
    let worker : Worker α := { state := s.current }
    { s with caller := .startFlag, thread := some s.workers.length,
             workers := s.workers ++ [worker] }
      |>.setState s.current { s.state with worker := s.workers.length }
  | some what =>
    { s with caller := .idle,
             result := .error (lit "Failed to create execution thread: " ++ what) }
      |>.setState s.current { s.state with workerExited := true }

def setStarted (s : DefaultInstanceExecutionBackend α) : DefaultInstanceExecutionBackend α :=
  { s with caller := .idle, result := .ok (), serving := true }
    |>.setState s.current { s.state with started := true }

/-- The first critical section of `stop`. -/
def stop (s : DefaultInstanceExecutionBackend α) : DefaultInstanceExecutionBackend α :=
  if !s.state.started && s.thread.isNone then { s with result := .ok () }
  else
    let caller : Caller := match s.thread with
      | some thread => .stopWait s.current thread
      | none => .stopClear s.current none
    { s with caller, thread := none, serving := false }
      |>.setState s.current { s.state with stopRequested := true }

/-- The critical section after the join, or instead of it if there is no thread. -/
def clear (s : DefaultInstanceExecutionBackend α) (k : Nat) (thread : Option Nat) :
    DefaultInstanceExecutionBackend α :=
  let s := { s with caller := .idle, result := .ok () }
  let state := { s.states k with started := false, stopRequested := false, tasks := [] }
  match thread with
  | some i => (s.setState k state).modifyWorker i fun w => { w with stopResult := some true }
  | none => s.setState k { state with workerExited := true }

/-- The end of a `stop` that timed out. -/
def replace (s : DefaultInstanceExecutionBackend α) (k i : Nat) :
    DefaultInstanceExecutionBackend α :=
  { s with caller := .idle, abandoned := s.abandoned ++ [i],
           current := if s.current = k then s.current + 1 else s.current,
           result := .error (lit "Timed out waiting for execution backend stop") }
    |>.modifyWorker i fun w => { w with stopResult := some false }

/-! ## The worker -/

/-- The next step of `run`; `none` while the worker waits. -/
def work (s : DefaultInstanceExecutionBackend α) (i : Nat) (w : Worker α) :
    Option (DefaultInstanceExecutionBackend α) :=
  let state := s.states w.state
  match w.pc with
  | .loop =>
    match state.tasks with
    | [] => if state.stopRequested then some (s.setWorker i { w with pc := .leaving }) else none
    | task :: tasks =>
      some (s.setState w.state { state with tasks }
        |>.setWorker i { w with pc := .running task, begun := w.begun ++ [task] })
  | .running task => some (s.setWorker i { w with pc := .loop, ended := w.ended ++ [task] })
  | .leaving =>
    some (s.setState w.state { state with workerExited := true }
      |>.setWorker i { w with pc := .exited })
  | .exited => none

def step (s : DefaultInstanceExecutionBackend α) : Act α → Option (DefaultInstanceExecutionBackend α)
  | .execute none => some (s.refuse (lit "Execution task is empty"))
  | .execute (some task) => some { s with executing := s.executing ++ [(s.current, task)] }
  | .lock k =>
    s.executing[k]?.map fun call =>
      { s with executing := s.executing.eraseIdx k }.push call.1 call.2
  | .start => match s.caller with
    | .idle => some s.start
    | _ => none
  | .createThread failure => match s.caller with
    | .startThread => some (s.createThread failure)
    | _ => none
  | .setStarted => match s.caller with
    | .startFlag => some s.setStarted
    | _ => none
  | .stop => match s.caller with
    | .idle => some s.stop
    | _ => none
  | .waited => match s.caller with
    | .stopWait k i =>
      if (s.states k).workerExited then some { s with caller := .stopJoin k i }
      else some { s with caller := .stopReplace k i }
    | _ => none
  | .join => match s.caller with
    | .stopJoin k i =>
      if (s.workers[i]?.map Worker.returned) = some true then
        some { s with caller := .stopClear k (some i) }
      else none
    | _ => none
  | .clear => match s.caller with
    | .stopClear k thread => some (s.clear k thread)
    | _ => none
  | .replace => match s.caller with
    | .stopReplace k i => some (s.replace k i)
    | _ => none
  | .work i => s.workers[i]?.bind (s.work i)

def machine (α : Type u) : Lts.Machine (DefaultInstanceExecutionBackend α) (Act α) := ⟨step⟩

end DefaultInstanceExecutionBackend

end Phi.Host
