import PhiSidecar.Transport.Descriptors

/-!
# Every descriptor is closed once (`uds_epoll_transport.cpp`, all of `UdsEpollServer`)

`Tidy` says that the server has been legal so far and holds exactly its members, the wake descriptor
pinned; `Safe` that a part of it keeps that, with further descriptors in local variables. There is one
lemma for each function.

* `run_descriptors`: **whatever fails and whatever the callbacks do, the server closes only what it has
  open, makes no call on a descriptor that is not its own (at most one on `-1`), has between two calls
  exactly its four members open, and after the destructor nothing**.
* `run_wakeFd`: the wake descriptor is open at every instant from the end of the `start` that made it to
  the destructor, for the `wakeup` of another thread.
-/

set_option autoImplicit false

namespace Phi.Transport

open Phi.V1 Ledger

namespace FdServer

/-! ## What the server holds -/

/-- The sockets and the epoll instance, which come and go. -/
def sockets (s : FdServer) : List Nat := s.clientFd.toList ++ s.epollFd.toList ++ s.serverFd.toList

/-- The server has been legal so far and holds its members and `extra`; the wake descriptor it has held
since `base`. -/
def Tidy (base : List (Op Nat)) (extra : List Nat) (s : FdServer) : Prop :=
  Keeps s.wakeFd.toList base (extra ++ s.sockets) s.calls

/-- From `s` to `t` the server stays tidy, with `extra` in local variables, and keeps its wake
descriptor. -/
structure Safe (extra : List Nat) (s t : FdServer) : Prop where
  tidy : ∀ base, Tidy base extra s → ∃ base', Tidy base' extra t ∧ (s.wakeFd.isSome → base' = base)
  wakeFd : s.wakeFd.isSome → t.wakeFd = s.wakeFd
  grown : s.calls <+: t.calls

/-- The descriptor is `-1` or held. -/
def Own (s : FdServer) (extra : List Nat) (fd : Option Nat) : Prop :=
  ∀ b ∈ fd, b ∈ s.wakeFd.toList ++ (extra ++ s.sockets)

variable {s t u : FdServer} {extra : List Nat} {base : List (Op Nat)} {fd : Nat}

theorem Safe.refl (s : FdServer) : Safe extra s s :=
  ⟨fun base h => ⟨base, h, fun _ => rfl⟩, fun _ => rfl, List.prefix_rfl⟩

theorem Safe.trans (h : Safe extra s t) (h' : Safe extra t u) : Safe extra s u := by
  refine ⟨fun base hbase => ?_, fun hw => ?_, h.grown.trans h'.grown⟩
  · obtain ⟨base', ht, heq⟩ := h.tidy base hbase
    obtain ⟨base'', hu, heq'⟩ := h'.tidy base' ht
    refine ⟨base'', hu, fun hw => ?_⟩
    rw [heq' (by rwa [h.wakeFd hw]), heq hw]
  · rw [h'.wakeFd (by rwa [h.wakeFd hw]), h.wakeFd hw]

/-- A call that leaves the wake descriptor alone. -/
theorem Safe.plain {op : Op Nat} (hw : t.wakeFd = s.wakeFd) (hc : t.calls = s.calls ++ [op])
    (h : ∀ base, Tidy base extra s → Tidy base extra t) : Safe extra s t :=
  ⟨fun base hbase => ⟨base, h base hbase, fun _ => rfl⟩, fun _ => hw, ⟨[op], hc.symm⟩⟩

/-- A step that changes no descriptor and makes no call. -/
theorem Safe.silent (hw : t.wakeFd = s.wakeFd) (hs : t.sockets = s.sockets) (hc : t.calls = s.calls) :
    Safe extra s t :=
  ⟨fun base h => ⟨base, by rwa [Tidy, hw, hs, hc], fun _ => rfl⟩, fun _ => hw, hc ▸ List.prefix_rfl⟩

theorem Safe.skip (h : Safe extra t u) (hw : t.wakeFd = s.wakeFd) (hs : t.sockets = s.sockets)
    (hc : t.calls = s.calls) : Safe extra s u := (Safe.silent hw hs hc).trans h

theorem own_clientFd (s : FdServer) (extra : List Nat) : s.Own extra s.clientFd := fun b hb => by
  simp_all [sockets]

theorem own_epollFd (s : FdServer) (extra : List Nat) : s.Own extra s.epollFd := fun b hb => by
  simp_all [sockets]

theorem own_serverFd (s : FdServer) (extra : List Nat) : s.Own extra s.serverFd := fun b hb => by
  simp_all [sockets]

theorem own_wakeFd (s : FdServer) (extra : List Nat) : s.Own extra s.wakeFd := fun b hb => by
  simp_all

theorem Safe.use {fd : Option Nat} (h : s.Own extra fd) : Safe extra s (s.use fd) :=
  .plain rfl rfl fun _ hs => Keeps.use hs h

/-! ## Closing -/

theorem sockets_close_client (h : s.clientFd = some fd) (extra : List Nat) :
    (extra ++ s.sockets).Perm (fd :: (extra ++ ({ s with clientFd := none } : FdServer).sockets)) := by
  unfold sockets
  rw [h]
  exact List.perm_middle

theorem sockets_close_epoll (h : s.epollFd = some fd) (extra : List Nat) :
    (extra ++ s.sockets).Perm (fd :: (extra ++ ({ s with epollFd := none } : FdServer).sockets)) := by
  unfold sockets
  rw [h]
  refine (List.Perm.append_left extra ?_).trans List.perm_middle
  rw [List.append_assoc, List.append_assoc]
  exact List.perm_middle

theorem sockets_close_server (h : s.serverFd = some fd) (extra : List Nat) :
    (extra ++ s.sockets).Perm (fd :: (extra ++ ({ s with serverFd := none } : FdServer).sockets)) := by
  unfold sockets
  rw [h]
  exact (List.Perm.append_left extra List.perm_middle).trans List.perm_middle

theorem closeClientFd_safe (s : FdServer) (extra : List Nat) : Safe extra s s.closeClientFd := by
  unfold closeClientFd
  cases h : s.clientFd with
  | none => exact .refl s
  | some fd => exact .plain rfl rfl fun _ hs => Keeps.release (hs.perm (sockets_close_client h extra))

theorem closeEpollFd_safe (s : FdServer) (extra : List Nat) : Safe extra s s.closeEpollFd := by
  unfold closeEpollFd
  cases h : s.epollFd with
  | none => exact .refl s
  | some fd => exact .plain rfl rfl fun _ hs => Keeps.release (hs.perm (sockets_close_epoll h extra))

theorem closeServerFd_safe (s : FdServer) (extra : List Nat) : Safe extra s s.closeServerFd := by
  unfold closeServerFd
  cases h : s.serverFd with
  | none => exact .refl s
  | some fd => exact .plain rfl rfl fun _ hs => Keeps.release (hs.perm (sockets_close_server h extra))

theorem stop_safe (s : FdServer) (extra : List Nat) : Safe extra s s.stop :=
  (s.closeClientFd_safe extra).trans <| (closeEpollFd_safe _ extra).trans <|
    (closeServerFd_safe _ extra).trans <| .silent rfl rfl rfl

/-! ## Opening -/

/-- A socket in a local variable becomes the client. -/
theorem adopt_safe (h : s.clientFd = none) (hs : Tidy base (fd :: extra) s) :
    Tidy base extra { s with clientFd := some fd } := by
  have hperm := sockets_close_client (s := { s with clientFd := some fd }) rfl extra
  rw [← h] at hperm
  exact Keeps.perm hs hperm.symm

theorem openServer_safe (h : s.serverFd = none) (extra : List Nat) (fd : Nat) :
    Safe extra s { s.opened fd with serverFd := some fd } := by
  refine .plain rfl rfl fun _ hs => ?_
  have hperm := sockets_close_server (s := { s with serverFd := some fd }) rfl extra
  rw [← h] at hperm
  exact Keeps.perm (Keeps.acquire hs fd) hperm.symm

theorem openEpollFd_safe (h : s.epollFd = none) (extra : List Nat) (fd : Nat) :
    Safe extra s { s.opened fd with epollFd := some fd } := by
  refine .plain rfl rfl fun _ hs => ?_
  have hperm := sockets_close_epoll (s := { s with epollFd := some fd }) rfl extra
  rw [← h] at hperm
  exact Keeps.perm (Keeps.acquire hs fd) hperm.symm

/-- The wake descriptor is pinned when it is created. -/
theorem openWakeFd_safe (h : s.wakeFd = none) (extra : List Nat) (fd : Nat) :
    Safe extra s { s.opened fd with wakeFd := some fd } := by
  refine ⟨fun base hs => ?_, fun hw => ?_, List.prefix_append _ _⟩
  · rw [Tidy, h] at hs
    have hpinned : Keeps [fd] (s.calls ++ [.acquire fd]) (extra ++ s.sockets) (s.calls ++ [.acquire fd]) :=
      (show Keeps [] base ([fd] ++ (extra ++ s.sockets)) _ from Keeps.acquire hs fd).pinned
    exact ⟨_, hpinned, fun hw => absurd hw (by simp [h])⟩
  · rw [h] at hw
    cases hw

/-! ## The functions, one by one -/

theorem drain_safe (s : FdServer) (extra : List Nat) (reads : Nat) : Safe extra s (s.drain reads) := by
  induction reads generalizing s with
  | zero => exact .use (s.own_wakeFd extra)
  | succ reads ih => exact (Safe.use (s.own_wakeFd extra)).trans (ih _)

theorem drainWakeFd_safe (s : FdServer) (extra : List Nat) (reads : Nat) :
    Safe extra s (s.drainWakeFd reads) := by
  unfold drainWakeFd
  split_ifs
  · exact s.drain_safe extra reads
  · exact .refl s

theorem createWakeFd_safe (s : FdServer) (extra : List Nat) (calls : StartReturns) :
    Safe extra s (s.createWakeFd calls).1 := by
  unfold createWakeFd
  split_ifs with hw
  · exact .refl s
  · split
    · exact .refl s
    · exact openWakeFd_safe (Option.not_isSome_iff_eq_none.1 hw) extra _

/-- A call of `epoll_ctl` for one of the members. -/
theorem epollCtl_safe {fd : Option Nat} (h : s.Own extra fd) :
    Safe extra s ((s.use s.epollFd).use fd) :=
  (Safe.use (s.own_epollFd extra)).trans (.use h)

theorem openEpoll_safe (h : s.epollFd = none) (extra : List Nat) (calls : StartReturns) :
    Safe extra s (s.openEpoll calls).1 := by
  unfold openEpoll
  split
  · exact .refl s
  · next fd _ =>
    have hopen := (openEpollFd_safe h extra fd).trans (epollCtl_safe (own_serverFd _ extra))
    dsimp only
    split
    · exact hopen
    · split
      · next t e he => exact hopen.trans (he ▸ createWakeFd_safe _ extra calls)
      · next t he =>
        have ht := hopen.trans (he ▸ createWakeFd_safe _ extra calls)
        exact (ht.trans (t.drainWakeFd_safe extra calls.drained)).trans (epollCtl_safe (own_wakeFd _ extra))

theorem listenSocket_safe (h : s.epollFd = none) (extra : List Nat) (calls : StartReturns) :
    Safe extra s (s.listenSocket calls).1 := by
  unfold listenSocket
  split_ifs
  · have hbind : Safe extra s (s.use s.serverFd) := .use (s.own_serverFd extra)
    have hlisten := hbind.trans (Safe.use (own_serverFd _ extra))
    dsimp only
    split
    · exact hbind
    · split
      · exact hbind
      · split
        · exact hlisten
        · exact hlisten.trans (openEpoll_safe (s := (s.use s.serverFd).use s.serverFd) h extra calls)
  · exact .refl s

theorem closeServerFd_epollFd (s : FdServer) : s.closeServerFd.epollFd = s.epollFd := by
  unfold closeServerFd
  split_ifs <;> rfl

theorem stop_epollFd (s : FdServer) : s.stop.epollFd = none := by
  refine (closeServerFd_epollFd _).trans ?_
  unfold closeEpollFd
  split_ifs with h
  · rfl
  · exact Option.not_isSome_iff_eq_none.1 h

theorem stop_serverFd (s : FdServer) : s.stop.serverFd = none := by
  change s.closeClientFd.closeEpollFd.closeServerFd.serverFd = none
  rw [closeServerFd]
  split_ifs with h
  · rfl
  · exact Option.not_isSome_iff_eq_none.1 h

theorem start_safe (s : FdServer) (extra : List Nat) (calls : StartReturns) :
    Safe extra s (s.start calls).1 := by
  have hstop := s.stop_safe extra
  unfold start
  dsimp only
  split
  · exact hstop
  · next fd _ =>
    have hsocket := hstop.trans (openServer_safe s.stop_serverFd extra fd)
    have hlisten := hsocket.trans
      (listenSocket_safe (s := { s.stop.opened fd with serverFd := some fd }) s.stop_epollFd extra calls)
    split
    · next t e he =>
      rw [he] at hlisten
      exact hlisten.trans (t.stop_safe extra)
    · next t he =>
      rw [he] at hlisten
      exact hlisten.trans (.silent rfl rfl rfl)

theorem wakeup_safe (s : FdServer) (extra : List Nat) : Safe extra s s.wakeup := by
  unfold wakeup
  split_ifs
  · exact .use (s.own_wakeFd extra)
  · exact .refl s

theorem dropClient_safe (s : FdServer) (extra : List Nat) : Safe extra s s.dropClient := by
  unfold dropClient
  split_ifs
  · exact (epollCtl_safe (s.own_clientFd extra)).trans (closeClientFd_safe _ extra)
  · exact .refl s

theorem closeClientDeferred_safe (s : FdServer) (extra : List Nat) : Safe extra s s.closeClientDeferred :=
  (s.dropClient_safe extra).trans (.silent rfl rfl rfl)

theorem writeAll_safe (s : FdServer) (extra : List Nat) (data : Bytes) (kernel : List WriteResult) :
    Safe extra s (s.writeAll data kernel).1 :=
  writeAll_rule .refl (fun h h' => h.trans h') (fun s => .use (s.own_clientFd extra)) s data kernel

theorem send_safe (s : FdServer) (extra : List Nat) (header : FrameHeader) (payload : Bytes)
    (wh wp : List WriteResult) : Safe extra s (s.send header payload wh wp).1 := by
  unfold send
  split_ifs
  · have hwrite := s.writeAll_safe extra (headerBytes (UdsEpollServer.wireFrame header payload).1) wh
    split
    · next t e he =>
      rw [he] at hwrite
      exact hwrite.trans (t.closeClientDeferred_safe extra)
    · next t he =>
      rw [he] at hwrite
      have hboth := hwrite.trans (t.writeAll_safe extra payload wp)
      split
      · next u e he' =>
        rw [he'] at hboth
        exact hboth.trans (u.closeClientDeferred_safe extra)
      · next u he' =>
        rw [he'] at hboth
        exact hboth
  · exact .refl s

theorem invoke_safe (s : FdServer) (extra : List Nat) (call : HookCall) : Safe extra s (s.invoke call) := by
  cases call with
  | send header payload writeHeader writePayload => exact s.send_safe extra ..
  | wakeup => exact s.wakeup_safe extra
  | stop => exact s.stop_safe extra
  | start calls => exact s.start_safe extra calls

theorem callback_safe (s : FdServer) (extra : List Nat) (calls : List HookCall) :
    Safe extra s (s.callback calls) := by
  induction calls generalizing s with
  | nil => exact .refl s
  | cons call calls ih => exact (s.invoke_safe extra call).trans (ih _)

theorem closeClient_safe (s : FdServer) (extra : List Nat) (onDisconnected : List HookCall) :
    Safe extra s (s.closeClient onDisconnected) :=
  (s.dropClient_safe extra).trans <| (callback_safe _ extra onDisconnected).skip rfl rfl rfl

theorem closeClient_clientFd (s : FdServer) (onDisconnected : List HookCall) :
    (s.closeClient onDisconnected).clientFd = none := by
  obtain h | ⟨h, -⟩ := callback_kept _ onDisconnected
  · exact h
  · exact h.trans s.dropClient_clientFd

/-- A descriptor is in a local variable from its opening on until it is closed or becomes a member. -/
theorem Safe.scope (h : Safe (fd :: extra) (s.opened fd) t) (hw : u.wakeFd = t.wakeFd)
    (hgrown : t.calls <+: u.calls) (hend : ∀ base, Tidy base (fd :: extra) t → Tidy base extra u) : Safe extra s u := by
  refine ⟨fun base hs => ?_, fun hsome => hw.trans (h.wakeFd hsome), ?_⟩
  · obtain ⟨base', ht, heq⟩ := h.tidy base (Keeps.acquire hs fd)
    exact ⟨base', hend base' ht, heq⟩
  · exact ((List.prefix_append _ _).trans h.grown).trans hgrown

theorem use_local (s : FdServer) (extra : List Nat) (fd : Nat) :
    Safe (fd :: extra) s (s.use (some fd)) := .use fun b hb => by simp_all

/-- The call that closes the descriptor in the local variable. -/
theorem close_local (hs : Tidy base (fd :: extra) s) : Tidy base extra (s.close (some fd)) := Keeps.release hs

/-- The descriptor of the client whose registration failed. -/
theorem discard_safe (h : s.clientFd = some fd) (extra : List Nat) :
    Safe extra s { s.close s.clientFd with clientFd := none } := by
  have hclose := s.closeClientFd_safe extra
  rwa [closeClientFd, if_pos (by rw [h]; rfl)] at hclose

theorem replaceClient_safe (s : FdServer) (extra : List Nat) (onDisconnected : List HookCall) :
    Safe extra s (s.replaceClient onDisconnected) := by
  unfold replaceClient
  split_ifs
  · exact s.closeClient_safe extra onDisconnected
  · exact .refl s

theorem replaceClient_clientFd (s : FdServer) (onDisconnected : List HookCall) :
    (s.replaceClient onDisconnected).clientFd = none := by
  unfold replaceClient
  split_ifs with h
  · exact s.closeClient_clientFd onDisconnected
  · exact Option.not_isSome_iff_eq_none.1 h

/-- The replaced connection is closed while the new one is in a local variable. -/
theorem adoptClient_safe (h : Safe (fd :: extra) (s.opened fd) t) (epollAdd : Except Bytes Unit)
    (onDisconnected : List HookCall) : Safe extra s (t.adoptClient fd epollAdd onDisconnected).1 := by
  have hreplace := h.trans (t.replaceClient_safe (fd :: extra) onDisconnected)
  have hadopt : Safe extra s { t.replaceClient onDisconnected with clientFd := some fd } :=
    hreplace.scope rfl List.prefix_rfl fun _ => adopt_safe (t.replaceClient_clientFd onDisconnected)
  have hadd := hadopt.trans (epollCtl_safe (own_clientFd _ extra))
  unfold adoptClient
  dsimp only
  split
  · exact hadd.trans (discard_safe rfl extra)
  · exact hadd.trans (.silent rfl rfl rfl)

theorem acceptClient_safe (s : FdServer) (extra : List Nat) (calls : AcceptReturns)
    (onDisconnected : List HookCall) : Safe extra s (s.acceptClient calls onDisconnected).1 := by
  have huse : Safe extra s (s.use s.serverFd) := .use (s.own_serverFd extra)
  unfold acceptClient
  dsimp only
  split
  · exact huse
  · exact huse
  · next fd _ =>
    have hget := use_local ((s.use s.serverFd).opened fd) extra fd
    have hset := hget.trans (use_local _ extra fd)
    split
    · exact huse.trans (hget.scope rfl (List.prefix_append _ _) fun _ => close_local)
    · split
      · exact huse.trans (hset.scope rfl (List.prefix_append _ _) fun _ => close_local)
      · exact huse.trans (adoptClient_safe hset calls.epollAdd onDisconnected)

theorem readSocket_safe (s : FdServer) (extra : List Nat) (onDisconnected : List HookCall)
    (reads : List ReadResult) : Safe extra s (s.readSocket onDisconnected reads).1 := by
  have huse : ∀ s : FdServer, Safe extra s (s.use s.clientFd) := fun s => .use (s.own_clientFd extra)
  fun_induction readSocket onDisconnected s reads with
  | case1 s => exact huse s
  | case2 s bytes rs ih => exact (huse s).trans (ih.skip rfl rfl rfl)
  | case3 s rs => exact (huse s).trans (closeClient_safe _ extra onDisconnected)
  | case4 s rs => exact huse s
  | case5 s rs ih => exact (huse s).trans ih
  | case6 s errno rs => exact (huse s).trans (closeClient_safe _ extra onDisconnected)

theorem dispatchFrames_safe (handler : List Frame → List HookCall) (onDisconnected : List HookCall)
    (s : FdServer) (extra : List Nat) :
    Safe extra s (s.dispatchFrames handler onDisconnected).1 := by
  fun_induction dispatchFrames handler onDisconnected s with
  | case1 s => exact .refl s
  | case2 s => exact .refl s
  | case3 s available hlen header hvalid hsize s' t hc =>
    exact (callback_safe s' extra _).skip rfl rfl rfl
  | case4 s available hlen header hvalid hsize s' t hc ih =>
    exact ((callback_safe s' extra _).trans ih).skip rfl rfl rfl
  | case5 s => exact s.closeClient_safe extra onDisconnected

theorem compact_safe (s : FdServer) (extra : List Nat) : Safe extra s s.compact := by
  unfold compact
  split_ifs <;> exact .silent rfl rfl rfl

theorem readClient_safe (handler : List Frame → List HookCall) (onDisconnected : List HookCall)
    (s : FdServer) (extra : List Nat) (reads : List ReadResult) :
    Safe extra s (s.readClient handler onDisconnected reads).1 := by
  have hread := s.readSocket_safe extra onDisconnected reads
  unfold readClient
  split
  · next t result he =>
    rw [he] at hread
    exact hread
  · next t he =>
    rw [he] at hread
    have hdispatch := hread.trans (t.dispatchFrames_safe handler onDisconnected extra)
    split
    · next u result he' =>
      rw [he'] at hdispatch
      exact hdispatch
    · next u he' =>
      rw [he'] at hdispatch
      exact hdispatch.trans (u.compact_safe extra)

theorem handleEvent_safe (s : FdServer) (extra : List Nat) (event : FdEvent) :
    Safe extra s (s.handleEvent event).1 := by
  unfold handleEvent
  split_ifs
  · exact s.drainWakeFd_safe extra event.drained
  · have haccept := s.acceptClient_safe extra event.accept event.onDisconnected
    split
    · next t e he =>
      rw [he] at haccept
      exact haccept
    · next t he =>
      rw [he] at haccept
      exact haccept.trans ((callback_safe _ extra event.onConnected).skip rfl rfl rfl)
    · next t he =>
      rw [he] at haccept
      exact haccept
  · exact s.closeClient_safe extra event.onDisconnected
  · exact s.readClient_safe event.onFrame event.onDisconnected extra event.reads
  · exact .refl s
  · exact .refl s

theorem handleEvents_safe (s : FdServer) (extra : List Nat) (events : List FdEvent) :
    Safe extra s (s.handleEvents events).1 := by
  induction events generalizing s with
  | nil => exact .refl s
  | cons event events ih =>
    have hevent := s.handleEvent_safe extra event
    rw [handleEvents]
    split
    · next t e he =>
      rw [he] at hevent
      exact hevent
    · next t he =>
      rw [he] at hevent
      exact hevent.trans (ih t)

theorem waiting_safe (s : FdServer) (extra : List Nat) (onDisconnected : List HookCall) :
    Safe extra s (s.waiting onDisconnected) := by
  have hnotify : Safe extra s (s.notify onDisconnected) := by
    unfold notify
    split_ifs
    · exact (callback_safe _ extra onDisconnected).skip rfl rfl rfl
    · exact .refl s
  exact hnotify.trans (.use (own_epollFd _ extra))

theorem pollOnce_safe (s : FdServer) (extra : List Nat) (onDisconnected : List HookCall) (wait : FdWait) :
    Safe extra s (s.pollOnce onDisconnected wait).1 := by
  have hwait := s.waiting_safe extra onDisconnected
  unfold pollOnce
  split_ifs
  · cases wait with
    | intr => exact hwait
    | error errno => exact hwait
    | events events => exact hwait.trans (handleEvents_safe _ extra events)
  · exact .refl s

/-! ## Runs -/

/-- The descriptors of the server. -/
def members (s : FdServer) : List Nat := s.wakeFd.toList ++ s.sockets

theorem stop_sockets (s : FdServer) : s.stop.sockets = [] := by
  rw [sockets, s.stop_clientFd, s.stop_epollFd, s.stop_serverFd]
  rfl

theorem closeWakeFd_tidy (hs : s.sockets = []) (h : Tidy base [] s) :
    Tidy base [] s.closeWakeFd ∧ s.closeWakeFd.members = [] := by
  unfold closeWakeFd
  cases hw : s.wakeFd with
  | none =>
    refine ⟨h, ?_⟩
    change s.wakeFd.toList ++ s.sockets = []
    rw [hw, hs]
    rfl
  | some w =>
    refine ⟨?_, hs⟩
    change Keeps [] base ([] ++ s.sockets) (s.calls ++ [.release (some w)])
    rw [Tidy, hw, hs] at h
    rw [hs]
    exact Keeps.release h.unpinned

/-- The destructor gives up the wake descriptor too. -/
theorem destroy_tidy (h : Tidy base [] s) : ∃ base', Tidy base' [] s.destroy ∧ s.destroy.members = [] := by
  obtain ⟨base', hstop, -⟩ := (s.stop_safe []).tidy base h
  exact ⟨base', closeWakeFd_tidy s.stop_sockets hstop⟩

theorem perform_safe (s : FdServer) {call : FdCall} (hcall : call ≠ .destroy) :
    Safe [] s (s.perform call) := by
  cases call with
  | start calls => exact s.start_safe [] calls
  | stop => exact s.stop_safe []
  | wakeup => exact s.wakeup_safe []
  | send header payload writeHeader writePayload => exact s.send_safe [] ..
  | pollOnce onDisconnected wait => exact s.pollOnce_safe [] onDisconnected wait
  | destroy => exact absurd rfl hcall

end FdServer

namespace FdObject

variable {s t : FdObject}

/-- What is known of a reachable server. -/
def Inv (s : FdObject) : Prop := (∃ base, s.Tidy base []) ∧ (s.destroyed = true → s.members = [])

theorem step_inv {call : FdCall} (h : s.Inv) (ht : s.step call = some t) : t.Inv := by
  obtain ⟨⟨base, hbase⟩, -⟩ := h
  unfold step at ht
  split_ifs at ht
  obtain rfl := Option.some.inj ht
  by_cases hcall : call = .destroy
  · subst hcall
    obtain ⟨base', htidy, hmembers⟩ := FdServer.destroy_tidy hbase
    exact ⟨⟨base', htidy⟩, fun _ => hmembers⟩
  · obtain ⟨base', htidy, -⟩ := (s.perform_safe hcall).tidy base hbase
    exact ⟨⟨base', htidy⟩, fun hdestroyed => by cases call <;> simp_all⟩

theorem run_tidy {calls : List FdCall} (hrun : machine.run {} calls = some s) : s.Inv := by
  have hnew : Inv {} := ⟨⟨[], Keeps.nil⟩, fun h => by cases h⟩
  exact Lts.Machine.run_inv (fun _ _ _ => step_inv) hnew hrun

/-- **The descriptors of a server**, whatever fails and whatever the callbacks do: it has released only
what it held, has made calls only on what it held or on `-1`, and holds exactly its members, which are
different from each other. After the destructor each descriptor has been closed as often as the kernel
returned it. -/
theorem run_descriptors {calls : List FdCall} (hrun : machine.run {} calls = some s)
    (hkernel : Throughout Fresh s.calls) :
    Throughout Legal s.calls ∧ s.members.Nodup ∧ held s.calls = s.members.toFinset ∧
      (s.destroyed = true → s.members = [] ∧
        ∀ fd, s.calls.count (.acquire fd) = s.calls.count (.release (some fd))) := by
  obtain ⟨⟨base, htidy⟩, hdestroyed⟩ := run_tidy hrun
  have k := htidy hkernel
  refine ⟨k.legal, k.nodup, k.held_eq, fun hgone => ⟨hdestroyed hgone, fun fd => ?_⟩⟩
  have hbalance := count_balance hkernel k.legal fd
  have hempty : held s.calls = ∅ := k.held_eq.trans (congrArg List.toFinset (hdestroyed hgone))
  rwa [hempty, if_neg (Finset.notMem_empty fd)] at hbalance

theorem step_wakeFd {w : Nat} {base : List (Op Nat)} {call : FdCall}
    (h : s.destroyed = true ∨ s.wakeFd = some w ∧ s.Tidy base []) (ht : s.step call = some t) :
    t.destroyed = true ∨ t.wakeFd = some w ∧ t.Tidy base [] := by
  unfold step at ht
  split_ifs at ht with hlive
  obtain rfl := Option.some.inj ht
  obtain ⟨hw, hbase⟩ := h.resolve_left hlive
  by_cases hcall : call = .destroy
  · subst hcall
    exact .inl rfl
  · have hsafe := s.perform_safe hcall
    have hsome : s.wakeFd.isSome := by rw [hw]; rfl
    obtain ⟨base', htidy, heq⟩ := hsafe.tidy base hbase
    exact .inr ⟨(hsafe.wakeFd hsome).trans hw, heq hsome ▸ htidy⟩

/-- **The wake descriptor stays open**: from the end of the call that made it on, at every instant of
every later call, until the destructor runs. -/
theorem run_wakeFd {w : Nat} {calls calls' : List FdCall} (hs : machine.run {} calls = some s)
    (hw : s.wakeFd = some w) (ht : machine.run s calls' = some t) (hlive : t.destroyed = false)
    (hkernel : Throughout Fresh t.calls) :
    t.wakeFd = some w ∧ ∀ now, s.calls <+: now → now <+: t.calls → w ∈ held now := by
  obtain ⟨⟨base, hbase⟩, -⟩ := run_tidy hs
  have hpinned : s.Tidy s.calls [] := by
    rw [FdServer.Tidy, hw] at hbase ⊢
    exact Keeps.pinned hbase.unpinned
  have hend := Lts.Machine.run_inv (I := fun t : FdObject => t.destroyed = true ∨ t.wakeFd = some w ∧
    t.Tidy s.calls []) (fun _ _ _ => step_wakeFd) (.inr ⟨hw, hpinned⟩) ht
  obtain ⟨hwake, htidy⟩ := hend.resolve_left (by simp [hlive])
  rw [FdServer.Tidy, hwake] at htidy
  exact ⟨hwake, fun now hbase hnow => (htidy hkernel).since now hbase hnow w (.head _)⟩

/-- A server that is started and stopped twice. The second connection replaces the first, whose
`onDisconnected` callback sends; the descriptor of the first is used again for the third. -/
def replaced : List FdCall :=
  [.start ⟨{ socket := .ok 3, epollCreate := .ok 4, eventfd := .ok 5 }, 0⟩,
    .pollOnce [] (.events [{ fd := 3, accept := { accept4 := .fd 6 } }]),
    .pollOnce [] (.events [{ fd := 5, drained := 1 },
      { fd := 3, accept := { accept4 := .fd 7 }, onDisconnected := [.send {} [] [] []] }]),
    .send {} [] [.error []] [],
    .pollOnce [] (.events [{ fd := 3, accept := { accept4 := .fd 6, epollAdd := .error [] } }]),
    .stop, .start ⟨{ socket := .ok 3, epollCreate := .error [], eventfd := .ok 9 }, 0⟩, .wakeup, .destroy]

theorem run_descriptors_replaced : ∃ s, machine.run {} replaced = some s ∧ s.destroyed = true ∧
    s.members = [] ∧ s.calls.count (.release (some 6)) = 2 := by
  have hrun : ((machine.run {} replaced).map fun s => (s.destroyed, s.calls.count (.acquire 6))) =
      some (true, 2) := by decide
  have hfresh : ∀ s ∈ machine.run {} replaced, Throughout Fresh s.calls := by decide
  obtain ⟨s, hs, heq⟩ := Option.map_eq_some_iff.1 hrun
  obtain ⟨hdestroyed, hcount⟩ := Prod.mk.inj heq
  obtain ⟨hmembers, hbalance⟩ := (run_descriptors hs (hfresh s hs)).2.2.2 hdestroyed
  exact ⟨s, hs, hdestroyed, hmembers, (hbalance 6).symm.trans hcount⟩

theorem run_wakeFd_restart : ∃ s t, machine.run {} (replaced.take 3) = some s ∧
    machine.run s ((replaced.drop 3).take 5) = some t ∧ ∀ now, s.calls <+: now → now <+: t.calls →
      5 ∈ held now := by
  have hrun : ((machine.run {} (replaced.take 3)).map fun s => s.wakeFd) = some (some 5) := by decide
  obtain ⟨s, hs, hw⟩ := Option.map_eq_some_iff.1 hrun
  have hrest : ∀ s ∈ machine.run {} (replaced.take 3),
      (machine.run s ((replaced.drop 3).take 5)).map (·.destroyed) = some false ∧
        ∀ t ∈ machine.run s ((replaced.drop 3).take 5), Throughout Fresh t.calls := by decide
  obtain ⟨t, ht, hlive⟩ := Option.map_eq_some_iff.1 (hrest s hs).1
  exact ⟨s, t, hs, ht, (run_wakeFd hs hw ht hlive ((hrest s hs).2 t ht)).2⟩

end FdObject

end Phi.Transport
