import Mathlib.Logic.Function.Basic
import PhiSidecar.Lib.Machine
import PhiSidecar.V1.Types

/-!
# The socket files of several servers (`uds_epoll_transport.cpp`: `start`, `stop`, `~UdsEpollServer`)

Here a server is its path and its listening descriptor, and the filesystem maps a path to the server
that has bound it. Any number of servers, of one process or several, are made, started, stopped and
destroyed; a call of `start` may fail in each of its system calls. `stop` closes only what is open, but
unlinks the path in any case. Every execution of it is recorded.

* `start_settles`: what a `start` makes of its server and of the path.
* `run_harmless_iff`: **no `stop` of a run removes the entry of another server, and one of a server that
  is not listening removes nothing, if and only if no server is started, stopped or destroyed while
  another one listens on its path**.
* `run_harms`: an old server is destroyed and takes the file of its successor with it.
-/

set_option autoImplicit false

namespace Phi.Transport

/-- The server. -/
structure SocketServer where
  socketPath : Bytes
  /-- `m_serverFd` is open. -/
  serverFd : Bool := false
  destroyed : Bool := false
  deriving DecidableEq

/-- An execution of `stop`: the server, and what was there before. -/
structure StopRecord where
  server : Nat
  serverFd : Bool
  /-- Who has bound the entry of the path. -/
  entry : Option Nat
  deriving DecidableEq

/-- The servers, in the order in which they were made, and the filesystem. -/
structure SocketFiles where
  servers : List SocketServer := []
  stops : List StopRecord := []
  files : Bytes → Option Nat := fun _ => none

namespace SocketFiles

/-- The system call of `start` that fails. -/
inductive StartFailure
  | socket
  | bind
  | chmod
  | listen
  | epollCreate
  | epollCtlServer
  | eventfd
  | epollCtlWakeup
  deriving DecidableEq

inductive FileAct
  | construct (socketPath : Bytes)
  | start (i : Nat) (failure : Option StartFailure)
  | stop (i : Nat)
  | destroy (i : Nat)

/-- `sizeof(addr.sun_path)`. -/
def sunPathSize : Nat := 108

/-- The empty name is the name of no file. -/
def unlink (files : Bytes → Option Nat) (path : Bytes) : Bytes → Option Nat :=
  if path = [] then files else Function.update files path none

/-- Without a name the address is an abstract one, which is no file. -/
def bind (files : Bytes → Option Nat) (path : Bytes) (i : Nat) : Bytes → Option Nat :=
  if path = [] then files else Function.update files path (some i)

/-- The entry of the path. -/
def entry (files : Bytes → Option Nat) (path : Bytes) : Option Nat :=
  if path = [] then none else files path

def stop (s : SocketFiles) (i : Nat) (server : SocketServer) : SocketFiles where
  servers := s.servers.set i { server with serverFd := false }
  stops := s.stops ++ [{ server := i, serverFd := server.serverFd, entry := entry s.files server.socketPath }]
  files := unlink s.files server.socketPath

def start (s : SocketFiles) (i : Nat) (server : SocketServer) (failure : Option StartFailure) :
    SocketFiles :=
  let s := s.stop i server
  if failure = some .socket then s
  else
    let server := { server with serverFd := true }
    let s := { s with servers := s.servers.set i server, files := unlink s.files server.socketPath }
    if sunPathSize ≤ server.socketPath.length then s.stop i server
    else if failure = some .bind then s.stop i server
    else
      let s := { s with files := bind s.files server.socketPath i }
      -- `chmod` does not find an abstract address; the other calls come after it
      if failure.isSome ∨ server.socketPath = [] then s.stop i server else s

/-- The destructor. -/
def destroy (s : SocketFiles) (i : Nat) (server : SocketServer) : SocketFiles :=
  let s := s.stop i server
  { s with servers := s.servers.set i { server with serverFd := false, destroyed := true } }

/-- The server at a position, if its lifetime has not ended. -/
def live (s : SocketFiles) (i : Nat) : Option SocketServer := (s.servers[i]?).filter (!·.destroyed)

def step (s : SocketFiles) : FileAct → Option SocketFiles
  | .construct socketPath => some { s with servers := s.servers ++ [{ socketPath }] }
  | .start i failure => (s.live i).map fun server => s.start i server failure
  | .stop i => (s.live i).map fun server => s.stop i server
  | .destroy i => (s.live i).map fun server => s.destroy i server

def machine : Lts.Machine SocketFiles FileAct := ⟨step⟩

/-! ## What is to hold -/

/-- The entry that was removed is the server's own, and the server was listening. -/
def Harmless (r : StopRecord) : Prop := ∀ owner ∈ r.entry, owner = r.server ∧ r.serverFd = true

/-- No `stop` so far has removed what it should not. -/
def AllHarmless (s : SocketFiles) : Prop := ∀ r ∈ s.stops, Harmless r

/-- No other server listens on the path of this one. -/
def Alone (s : SocketFiles) (i : Nat) : Prop :=
  ∀ j < s.servers.length, j ≠ i → ∀ other ∈ s.servers[j]?, ∀ server ∈ s.servers[i]?,
    other.socketPath = server.socketPath → other.serverFd = false

/-- A server is started, stopped and destroyed with its path to itself. -/
def Allowed (s : SocketFiles) : FileAct → Prop
  | .construct _ => True
  | .start i _ | .stop i | .destroy i => s.Alone i

/-! ## The invariant -/

/-- The entries are those of the listening servers. -/
structure Owned (s : SocketFiles) : Prop where
  entry : ∀ path i, s.files path = some i →
    ∃ server, s.servers[i]? = some server ∧ server.socketPath = path ∧ server.serverFd = true
  bound : ∀ (i : Nat) server, s.servers[i]? = some server → server.serverFd = true →
    server.socketPath ≠ [] ∧ s.files server.socketPath = some i
  harmless : AllHarmless s

/-- What a call leaves: the server, its entry if it listens, and the records of its stops. -/
def settled (s : SocketFiles) (i : Nat) (server : SocketServer) (records : List StopRecord) :
    SocketFiles where
  servers := s.servers.set i server
  stops := s.stops ++ records
  files := if server.serverFd then bind s.files server.socketPath i else unlink s.files server.socketPath

/-- The record of the first `stop` of a call. -/
def firstRecord (s : SocketFiles) (i : Nat) (server : SocketServer) : StopRecord :=
  { server := i, serverFd := server.serverFd, entry := entry s.files server.socketPath }

variable {s t : SocketFiles} {i : Nat} {server server' : SocketServer} {records : List StopRecord}

/-! ## What a call leaves -/

@[simp] theorem unlink_unlink (files : Bytes → Option Nat) (path : Bytes) :
    unlink (unlink files path) path = unlink files path := by
  unfold unlink
  split_ifs
  · rfl
  · rw [Function.update_idem]

@[simp] theorem unlink_bind (files : Bytes → Option Nat) (path : Bytes) (i : Nat) :
    unlink (bind files path i) path = unlink files path := by
  unfold unlink bind
  split_ifs
  · rfl
  · rw [Function.update_idem]

@[simp] theorem bind_unlink (files : Bytes → Option Nat) (path : Bytes) (i : Nat) :
    bind (unlink files path) path i = bind files path i := by
  unfold unlink bind
  split_ifs
  · rfl
  · rw [Function.update_idem]

theorem unlink_self {files : Bytes → Option Nat} {path : Bytes} (h : path ≠ []) :
    unlink files path path = none := by
  rw [unlink, if_neg h, Function.update_self]

theorem bind_self {files : Bytes → Option Nat} {path : Bytes} (h : path ≠ []) (i : Nat) :
    bind files path i path = some i := by
  rw [bind, if_neg h, Function.update_self]

theorem unlink_other {files : Bytes → Option Nat} {path other : Bytes} (h : other ≠ path) :
    unlink files path other = files other := by
  unfold unlink
  split_ifs
  · rfl
  · exact Function.update_of_ne h ..

theorem bind_other {files : Bytes → Option Nat} {path other : Bytes} (h : other ≠ path) (i : Nat) :
    bind files path i other = files other := by
  unfold bind
  split_ifs
  · rfl
  · exact Function.update_of_ne h ..

theorem destroy_settles (s : SocketFiles) (i : Nat) (server : SocketServer) :
    s.destroy i server =
      s.settled i { server with serverFd := false, destroyed := true } [s.firstRecord i server] := by
  unfold destroy stop settled firstRecord
  dsimp only
  rw [List.set_set]
  rfl

theorem entry_unlink (files : Bytes → Option Nat) (path : Bytes) :
    entry (unlink files path) path = none := by
  unfold entry
  split_ifs with hnil
  · rfl
  · exact unlink_self hnil

theorem entry_bind (files : Bytes → Option Nat) (path : Bytes) (i : Nat) :
    entry (bind files path i) path = none ∨ entry (bind files path i) path = some i := by
  unfold entry
  split_ifs with hnil
  · exact .inl rfl
  · exact .inr (bind_self hnil i)

/-- A `stop` inside of `start` finds the server's own entry or none. -/
theorem harmless_own (i : Nat) {e : Option Nat} (h : e = none ∨ e = some i) :
    ∀ r ∈ [({ server := i, serverFd := true, entry := e } : StopRecord)], Harmless r := by
  rw [List.forall_mem_singleton]
  obtain rfl | rfl := h
  · rintro _ ⟨⟩
  · rintro _ ⟨⟩
    exact ⟨rfl, rfl⟩

/-- **A `start` leaves its server listening with the entry of its path, or not listening and no
entry.** -/
theorem start_settles (s : SocketFiles) (i : Nat) (server : SocketServer) (failure : Option StartFailure) :
    ∃ up rest, (up = true → server.socketPath ≠ []) ∧ (∀ r ∈ rest, Harmless r) ∧
      s.start i server failure =
        s.settled i { server with serverFd := up } (s.firstRecord i server :: rest) := by
  have hunlinked := entry_unlink s.files server.socketPath
  unfold start
  dsimp only
  split_ifs with hsocket hlong hbind hfailed
  · exact ⟨false, [], nofun, List.forall_mem_nil _, rfl⟩
  · refine ⟨false, _, nofun, harmless_own i (.inl rfl), ?_⟩
    simp [stop, settled, firstRecord, hunlinked]
  · refine ⟨false, _, nofun, harmless_own i (.inl rfl), ?_⟩
    simp [stop, settled, firstRecord, hunlinked]
  · refine ⟨false, _, nofun, harmless_own i (entry_bind s.files server.socketPath i), ?_⟩
    simp [stop, settled, firstRecord]
  · obtain ⟨-, hnil⟩ := not_or.1 hfailed
    refine ⟨true, [], fun _ => hnil, List.forall_mem_nil _, ?_⟩
    simp [stop, settled, firstRecord]

/-- What a step is. -/
inductive Stepped (s : SocketFiles) : FileAct → SocketFiles → Prop
  | construct (socketPath : Bytes) :
      Stepped s (.construct socketPath) { s with servers := s.servers ++ [{ socketPath }] }
  | call {a i server server' rest} : Allowed s a = s.Alone i → s.servers[i]? = some server →
      server'.socketPath = server.socketPath → (server'.serverFd = true → server'.socketPath ≠ []) →
      (∀ r ∈ rest, Harmless r) → Stepped s a (s.settled i server' (s.firstRecord i server :: rest))

theorem live_get (h : s.live i = some server) : s.servers[i]? = some server :=
  (Option.filter_eq_some_iff.1 h).1

theorem step_cases {a : FileAct} (h : s.step a = some t) : Stepped s a t := by
  cases a with
  | construct socketPath =>
    cases h
    exact .construct socketPath
  | start i failure =>
    obtain ⟨server, hlive, rfl⟩ := Option.map_eq_some_iff.1 h
    obtain ⟨up, rest, hup, hrest, heq⟩ := s.start_settles i server failure
    rw [heq]
    exact .call rfl (live_get hlive) rfl hup hrest
  | stop i =>
    obtain ⟨server, hlive, rfl⟩ := Option.map_eq_some_iff.1 h
    exact .call rfl (live_get hlive) rfl nofun (List.forall_mem_nil _)
  | destroy i =>
    obtain ⟨server, hlive, rfl⟩ := Option.map_eq_some_iff.1 h
    rw [destroy_settles]
    exact .call rfl (live_get hlive) rfl nofun (List.forall_mem_nil _)

/-! ## Steps -/

theorem Owned.new : Owned {} :=
  ⟨nofun, fun _ _ hi => (nomatch hi), List.forall_mem_nil _⟩

theorem Alone.other (h : s.Alone i) {j : Nat} {other : SocketServer} (hj : s.servers[j]? = some other)
    (hne : j ≠ i) (hi : s.servers[i]? = some server) (hpath : other.socketPath = server.socketPath) :
    other.serverFd = false :=
  h j (List.getElem?_eq_some_iff.1 hj).1 hne other hj server hi hpath

/-- The first `stop` of a call with the path to itself. -/
theorem Owned.firstRecord (h : Owned s) (halone : s.Alone i) (hi : s.servers[i]? = some server) :
    Harmless (s.firstRecord i server) := by
  intro owner howner
  change SocketFiles.entry s.files server.socketPath = some owner at howner
  unfold SocketFiles.entry at howner
  split_ifs at howner
  obtain ⟨other, hother, hpath, hup⟩ := h.entry _ _ howner
  by_cases hne : owner = i
  · subst hne
    obtain rfl := Option.some.inj (hi.symm.trans hother)
    exact ⟨rfl, hup⟩
  · exact absurd ((halone.other hother hne hi hpath).symm.trans hup) nofun

theorem settled_files (records : List StopRecord) {path : Bytes}
    (hpath : path ≠ server'.socketPath) :
    (s.settled i server' records).files path = s.files path := by
  unfold settled
  dsimp only
  split_ifs
  · exact bind_other hpath i
  · exact unlink_other hpath

theorem settled_get (hi : s.servers[i]? = some server) (records : List StopRecord) :
    (s.settled i server' records).servers[i]? = some server' :=
  List.getElem?_set_self (List.getElem?_eq_some_iff.1 hi).1

theorem settled_other {j : Nat} (hne : j ≠ i) (records : List StopRecord) :
    (s.settled i server' records).servers[j]? = s.servers[j]? :=
  List.getElem?_set_ne (Ne.symm hne)

theorem Owned.settled (h : Owned s) (halone : s.Alone i) (hi : s.servers[i]? = some server)
    (hpath : server'.socketPath = server.socketPath)
    (hup : server'.serverFd = true → server'.socketPath ≠ []) (hr : ∀ r ∈ records, Harmless r) :
    Owned (s.settled i server' records) := by
  refine ⟨fun path j hj => ?_, fun j other hj hother => ?_, fun r hmem => ?_⟩
  · by_cases heq : path = server'.socketPath
    · subst heq
      unfold SocketFiles.settled at hj
      dsimp only at hj
      split_ifs at hj with hfd
      · rw [bind_self (hup hfd)] at hj
        obtain rfl := Option.some.inj hj
        exact ⟨server', settled_get hi _, rfl, hfd⟩
      · by_cases hnil : server'.socketPath = []
        · rw [unlink, if_pos hnil] at hj
          obtain ⟨other, hother, hpath', hfd'⟩ := h.entry _ _ hj
          exact absurd (hpath'.trans hnil) (h.bound _ _ hother hfd').1
        · rw [unlink_self hnil] at hj
          cases hj
    · rw [settled_files _ heq] at hj
      obtain ⟨other, hother, rfl, hfd⟩ := h.entry _ _ hj
      have hne : j ≠ i := by
        rintro rfl
        obtain rfl := Option.some.inj (hi.symm.trans hother)
        exact heq hpath.symm
      exact ⟨other, (settled_other hne _).trans hother, rfl, hfd⟩
  · by_cases hne : j = i
    · subst hne
      obtain rfl := Option.some.inj ((settled_get hi _).symm.trans hj)
      refine ⟨hup hother, ?_⟩
      unfold SocketFiles.settled
      dsimp only
      rw [if_pos hother]
      exact bind_self (hup hother) j
    · rw [settled_other hne] at hj
      obtain ⟨hnil, hfile⟩ := h.bound _ _ hj hother
      refine ⟨hnil, (settled_files _ fun heq => ?_).trans hfile⟩
      exact absurd ((halone.other hj hne hi (heq.trans hpath)).symm.trans hother) nofun
  · obtain hmem | hmem := List.mem_append.1 hmem
    · exact h.harmless r hmem
    · exact hr r hmem

/-- The servers after a further one was made. -/
theorem get_append {l : List SocketServer} {j : Nat} (hj : (l ++ [server])[j]? = some server') :
    l[j]? = some server' ∨ server' = server := by
  obtain hlt | hle := Nat.lt_or_ge j l.length
  · exact .inl (by rwa [List.getElem?_append_left hlt] at hj)
  · rw [List.getElem?_append_right hle] at hj
    exact .inr (List.mem_singleton.1 (List.mem_of_getElem? hj))

theorem step_owned (h : Owned s) {a : FileAct} (hok : Allowed s a) (ht : s.step a = some t) : Owned t := by
  cases step_cases ht with
  | construct socketPath =>
    refine ⟨fun path i hi => ?_, fun i server hi hup => ?_, h.harmless⟩
    · obtain ⟨server, hserver, hrest⟩ := h.entry path i hi
      refine ⟨server, ?_, hrest⟩
      exact (List.getElem?_append_left (List.getElem?_eq_some_iff.1 hserver).1).trans hserver
    · obtain hi | rfl := get_append hi
      · exact h.bound i server hi hup
      · cases hup
  | call hallowed hi hpath hup hrest =>
    have halone := hallowed ▸ hok
    exact h.settled halone hi hpath hup (List.forall_mem_cons.2 ⟨h.firstRecord halone hi, hrest⟩)

/-- A call beside a listening server removes its entry. -/
theorem step_harms (h : Owned s) {a : FileAct} (hbad : ¬Allowed s a) (ht : s.step a = some t) :
    ¬AllHarmless t := by
  cases step_cases ht with
  | construct socketPath => exact absurd trivial hbad
  | @call a i server server' rest hallowed hi hpath hup hrest =>
    rw [hallowed] at hbad
    simp only [Alone, not_forall] at hbad
    obtain ⟨j, -, hne, other, hother, server, hserver, heq, hfd⟩ := hbad
    obtain rfl := Option.some.inj (hi.symm.trans hserver)
    obtain ⟨hnil, hfile⟩ := h.bound j other hother (Bool.not_eq_false _ ▸ hfd)
    intro hall
    have hfirst : Harmless (s.firstRecord i server) := hall _ (List.mem_append_right _ (.head _))
    have hentry : (s.firstRecord i server).entry = some j := by
      change SocketFiles.entry s.files server.socketPath = some j
      rw [SocketFiles.entry, if_neg (heq ▸ hnil), ← heq, hfile]
    exact hne (hfirst j hentry).1

theorem step_stops {a : FileAct} (ht : s.step a = some t) (h : AllHarmless t) : AllHarmless s := by
  cases step_cases ht with
  | construct socketPath => exact h
  | call _ _ _ _ _ => exact fun r hr => h r (List.mem_append_left _ hr)

/-- **The servers remove their own socket files only, in exactly the runs in which each call has its path
to itself.** -/
theorem run_harmless_iff {as : List FileAct} (h : machine.run {} as = some s) :
    AllHarmless s ↔ machine.Along Allowed {} as :=
  Lts.Machine.along_iff_of_inv (I := Owned) (G := AllHarmless) (fun _ hs => hs.harmless) (fun _ _ _ hs hok ht =>
      step_owned hs hok ht) (fun _ _ _ hs hbad ht => step_harms hs hbad ht)
    (fun _ _ _ hs ht hall => hs (step_stops ht hall)) Owned.new h

instance (s : SocketFiles) (a : FileAct) : Decidable (Allowed s a) :=
  match a with
  | .construct _ => .isTrue trivial
  | .start i _ | .stop i | .destroy i => inferInstanceAs (Decidable (∀ j < s.servers.length, j ≠ i →
      ∀ other ∈ s.servers[j]?, ∀ server ∈ s.servers[i]?,
        other.socketPath = server.socketPath → other.serverFd = false))

/-- Two generations, one after the other. -/
def succession : List FileAct :=
  [.construct (lit "/run/a"), .start 0 none, .stop 0, .destroy 0, .construct (lit "/run/a"),
    .start 1 (some .listen), .start 1 none]

theorem run_harmless_succession : ∃ s, machine.run {} succession = some s ∧ s.files (lit "/run/a") = some 1 ∧
    AllHarmless s := by
  have hrun : (machine.run {} succession).map (·.files (lit "/run/a")) = some (some 1) := rfl
  obtain ⟨s, hs, hfiles⟩ := Option.map_eq_some_iff.1 hrun
  exact ⟨s, hs, hfiles, (run_harmless_iff hs).2 (by decide)⟩

/-- The old server is stopped before its successor is started, and destroyed after that. -/
def overlap : List FileAct :=
  [.construct (lit "/run/a"), .start 0 none, .stop 0, .construct (lit "/run/a"), .start 1 none, .destroy 0]

/-- The destructor of a server that is already stopped removes the entry of its successor. -/
theorem run_harms : ¬∀ (as : List FileAct) (s : SocketFiles), machine.run {} as = some s → AllHarmless s := by
  intro hall
  have hharmless := hall overlap _ rfl { server := 0, serverFd := false, entry := some 1 }
    (by decide) 1 rfl
  exact absurd hharmless.1 (by decide)

end SocketFiles

end Phi.Transport
