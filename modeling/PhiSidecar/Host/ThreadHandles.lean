import PhiSidecar.Host.ExecutionBackend
import PhiSidecar.Lib.Ledger

/-!
# The threads of a process (`sidecar.cpp`, `sidecar_main.cpp`)

A `Process` has any number of execution backends, the one `AbandonedThreadRegistry` that takes the
threads of the stops that time out, and a main thread that is in `runSidecarMain`. The backends are
those of `Host.ExecutionBackend`, here with the adoption in front of the end of such a stop, with the
destructor, and with the two places where a `std::thread` that is still joinable would end the
process. `reapFinished` is one action for each turn of its loop.

A thread is the pair of the number of its backend and of its worker. What happens to thread handles
is in the ghost `threads`: the creation of a thread acquires its handle, and a `join` releases it.
-/

set_option autoImplicit false

namespace Phi.Host

universe u

/-- `AbandonedThreadRegistry::Entry`; its `hasExited` looks at a `State` of its backend. -/
structure AbandonedThreadRegistry.Entry where
  backend : Nat
  thread : Nat
  state : Nat
  deriving DecidableEq

namespace DefaultInstanceExecutionBackend

variable {α : Type u}

/-- The local `thread` of a `stop`, while it is joinable. -/
def Caller.thread : Caller → Option Nat
  | .stopWait _ i | .stopReplace _ i | .stopJoin _ i => some i
  | .idle | .startThread | .startFlag | .stopClear _ _ => none

def Caller.isIdle : Caller → Bool
  | .idle => true
  | .startThread | .startFlag | .stopWait _ _ | .stopReplace _ _ | .stopJoin _ _ | .stopClear _ _ => false

/-- The threads that a backend and a `stop` of it hold. -/
def handles (s : DefaultInstanceExecutionBackend α) : List Nat :=
  s.thread.toList ++ s.caller.thread.toList

/-- What an action does to the threads of a backend. -/
def threadOps (s : DefaultInstanceExecutionBackend α) : Act α → List (Ledger.Op Nat)
  | .createThread none => [.acquire s.workers.length]
  | .join => [.release s.caller.thread]
  | _ => []

/-- The assignment to an `m_thread` that is joinable. -/
def overwrites (s : DefaultInstanceExecutionBackend α) : Act α → Bool
  | .createThread none => s.thread.isSome
  | _ => false

def hasExited (s : DefaultInstanceExecutionBackend α) (k : Nat) : Bool := (s.states k).workerExited

end DefaultInstanceExecutionBackend

namespace Process

section
variable (α : Type u)

inductive Life
  | alive
  /-- In the destructor, which calls `stop`. -/
  | ending
  | ended
  deriving DecidableEq

structure Slot where
  backend : DefaultInstanceExecutionBackend α := {}
  life : Life := .alive
  /-- The registry has the thread of the `stop` that has timed out. -/
  adopted : Bool := false

/-- A `reapFinished` in its loop: who called it, and the position of `it`. -/
structure Reaping where
  main : Bool
  it : Nat := 0

/-- Where the main thread is in `runSidecarMain`. -/
inductive MainAt
  /-- In `host.start()`. -/
  | starting
  /-- `return 1`, when that has failed. -/
  | failed
  /-- Up to the return of `host.stop()`. -/
  | loop
  /-- In `reapAbandonedExecutionThreads`, with what the last `reapFinished` returned. -/
  | grace (left : Option Nat)
  | returned
  /-- `std::_Exit(0)`. -/
  | exited
  deriving DecidableEq

/-- The host makes, starts and stops backends. -/
def MainAt.hosting : MainAt → Bool
  | .starting | .loop => true
  | .failed | .grace _ | .returned | .exited => false

end

end Process

open Process in
structure Process (α : Type u) where
  backends : List (Slot α) := []
  /-- `m_entries`. -/
  entries : List AbandonedThreadRegistry.Entry := []
  /-- The holder of the registry's `m_mutex`; an `adopt` is one action. -/
  reaping : Option Reaping := none
  main : MainAt := .starting
  /-- `std::terminate` has been called. -/
  terminated : Bool := false
  threads : List (Ledger.Op (Nat × Nat)) := []

namespace Process

open AbandonedThreadRegistry

variable {α : Type u}

inductive Act (α : Type u)
  | new
  | call (b : Nat) (a : DefaultInstanceExecutionBackend.Act α)
  | adopt (b : Nat)
  /-- The destructor of a backend, up to the first critical section of its `stop`. -/
  | destroy (b : Nat)
  /-- The end of a destructor. -/
  | destroyed (b : Nat)
  /-- A `reapFinished` takes the lock. -/
  | reap (main : Bool)
  /-- A turn of its loop. -/
  | next
  /-- It returns. -/
  | reaped
  /-- `host.start()` returns. -/
  | hostStarted (ok : Bool)
  /-- `host.stop()` returns. -/
  | hostStopped
  /-- The main thread leaves `reap`, if it may, and then `runSidecarMain`. -/
  | leave (deadline : Bool)

/-- Every call of `start` has been answered by a `stop`, which has returned. -/
def Slot.atRest (slot : Slot α) : Bool := slot.backend.caller.isIdle && !slot.backend.serving

/-- The threads that are not in the registry. -/
def Slot.handles (slot : Slot α) : List Nat :=
  slot.backend.thread.toList ++ if slot.adopted then [] else slot.backend.caller.thread.toList

/-- All threads that are joinable. -/
def handles (p : Process α) : List (Nat × Nat) :=
  p.backends.zipIdx.flatMap (fun slot => slot.1.handles.map (slot.2, ·)) ++
    p.entries.map fun e => (e.backend, e.thread)

/-- The lifecycle of the backends is the main thread's, which makes one such call of a backend at a time,
and no one calls a backend that is being destroyed. -/
def permits (main : MainAt) (slot : Slot α) : DefaultInstanceExecutionBackend.Act α → Bool
  | .start | .stop => main.hosting && slot.life == .alive
  | .execute _ => slot.life == .alive
  | .replace => slot.adopted
  | .lock _ | .createThread _ | .setStarted | .waited | .join | .clear | .work _ => true

def setSlot (p : Process α) (b : Nat) (slot : Slot α) : Process α :=
  { p with backends := p.backends.set b slot }

def Slot.after (slot : Slot α) (a : DefaultInstanceExecutionBackend.Act α)
    (backend : DefaultInstanceExecutionBackend α) : Slot α :=
  match a with
  | .replace => { slot with backend, adopted := false }
  | _ => { slot with backend }

def call (p : Process α) (b : Nat) (slot : Slot α) (a : DefaultInstanceExecutionBackend.Act α)
    (backend : DefaultInstanceExecutionBackend α) : Process α :=
  { p.setSlot b (slot.after a backend) with
    terminated := p.terminated || slot.backend.overwrites a
    threads := p.threads ++ (slot.backend.threadOps a).map fun
      | .acquire i => .acquire (b, i)
      | .use i => .use (i.map (b, ·))
      | .release i => .release (i.map (b, ·)) }

def adopt (p : Process α) (b : Nat) (slot : Slot α) : Option (Process α) :=
  match slot.backend.caller, slot.adopted, p.reaping with
  | .stopReplace k i, false, none =>
    some { p.setSlot b { slot with adopted := true } with entries := p.entries ++ [⟨b, i, k⟩] }
  | _, _, _ => none

def destroy (p : Process α) (b : Nat) (slot : Slot α) : Option (Process α) :=
  if p.main.hosting && slot.life == .alive && slot.backend.caller.isIdle then
    some (p.setSlot b { slot with backend := slot.backend.stop, life := .ending })
  else none

/-- The destructor of `m_thread`. -/
def destroyed (p : Process α) (b : Nat) (slot : Slot α) : Option (Process α) :=
  if slot.life == .ending && slot.backend.caller.isIdle then
    some { p.setSlot b { slot with life := .ended } with
      terminated := p.terminated || slot.backend.thread.isSome }
  else none

def hasExited (p : Process α) (e : Entry) : Bool :=
  (p.backends[e.backend]?.map fun slot => slot.backend.hasExited e.state) == some true

/-- The thread has come to its end. -/
def returned (p : Process α) (thread : Nat × Nat) : Bool :=
  (p.backends[thread.1]?.bind fun slot => slot.backend.workers[thread.2]?).map
    DefaultInstanceExecutionBackend.Worker.returned == some true

/-- One turn; `none` while the `join` waits. -/
def next (p : Process α) (r : Reaping) (e : Entry) : Option (Process α) :=
  if p.hasExited e then
    if p.returned (e.backend, e.thread) then
      some { p with
        entries := p.entries.eraseIdx r.it
        threads := p.threads ++ [.release (some (e.backend, e.thread))] }
    else none
  else some { p with reaping := some { r with it := r.it + 1 } }

def reaped (p : Process α) (r : Reaping) : Process α :=
  { p with reaping := none, main := if r.main then .grace (some p.entries.length) else p.main }

/-- `host.start()` returns. It has stopped its backend if it fails. -/
def hostStarted (p : Process α) (ok : Bool) : Option (Process α) :=
  match p.main, ok with
  | .starting, true => some { p with main := .loop }
  | .starting, false => if p.backends.all Slot.atRest then some { p with main := .failed } else none
  | _, _ => none

/-- `host.stop()` returns. It has stopped every backend, whether in time or not. -/
def hostStopped (p : Process α) : Option (Process α) :=
  match p.main with
  | .loop => if p.backends.all Slot.atRest then some { p with main := .grace none } else none
  | .starting | .failed | .grace _ | .returned | .exited => none

def step (p : Process α) : Act α → Option (Process α)
  | .new => if p.main.hosting then some { p with backends := p.backends ++ [{}] } else none
  | .call b a => p.backends[b]?.bind fun slot =>
    if permits p.main slot a then (slot.backend.step a).map (p.call b slot a) else none
  | .adopt b => p.backends[b]?.bind (p.adopt b)
  | .destroy b => p.backends[b]?.bind (p.destroy b)
  | .destroyed b => p.backends[b]?.bind (p.destroyed b)
  | .reap main => match p.reaping, main, p.main with
    | none, false, _ | none, true, .grace none | none, true, .grace (some (_ + 1)) =>
      some { p with reaping := some { main } }
    | _, _, _ => none
  | .next => p.reaping.bind fun r => p.entries[r.it]?.bind (p.next r)
  | .reaped => p.reaping.bind fun r =>
    match p.entries[r.it]? with
    | none => some (p.reaped r)
    | some _ => none
  | .hostStarted ok => p.hostStarted ok
  | .hostStopped => p.hostStopped
  | .leave deadline => match p.main, p.reaping.any (·.main) with
    | .grace (some 0), false => some { p with main := .returned }
    | .grace (some (_ + 1)), false => if deadline then some { p with main := .exited } else none
    | _, _ => none

def machine (α : Type u) : Lts.Machine (Process α) (Act α) := ⟨step⟩

end Process

end Phi.Host
