import PhiSidecar.Transport.DescriptorsProof

/-!
# Events and reused descriptors (`uds_epoll_transport.cpp`: the loop of `pollOnce`)

One `epoll_wait` reports up to eight events, and the turns for the first of them close connections and
accept new ones, while the kernel uses the numbers of closed descriptors again. The loop tells by the
number alone what an event is about.

* `handleEvent_cases`: what a turn does to the client.
* `pollOnce_current`: **an event that is handled as one of the client is about the connection that was
  the client when it was reported**: the number has not been handed out since, whatever the callbacks of
  the turns before did.
-/

set_option autoImplicit false

namespace Phi.Transport

open Phi.V1 Ledger

namespace FdServer

variable {s t u : FdServer} {event : FdEvent} {front back : List FdEvent}

/-- What the kernel reports: registered descriptors, each once. -/
structure Reported (s : FdServer) (events : List FdEvent) : Prop where
  nodup : (events.map (·.fd)).Nodup
  registered : ∀ event ∈ events, some event.fd ∈ [s.wakeFd, s.serverFd, s.clientFd]

/-- The turn for the event is one for the client. -/
structure ForClient (s : FdServer) (event : FdEvent) : Prop where
  wake : s.wakeFd ≠ some event.fd
  server : s.serverFd ≠ some event.fd
  client : s.clientFd = some event.fd

/-! ## What a turn does to the client -/

/-- The members are as they were, and the kernel has returned no descriptor. -/
structure Quiet (s t : FdServer) : Prop where
  clientFd : t.clientFd = s.clientFd
  serverFd : t.serverFd = s.serverFd
  wakeFd : t.wakeFd = s.wakeFd
  acquired : ∀ fd, t.calls.count (.acquire fd) = s.calls.count (.acquire fd)

theorem Quiet.refl (s : FdServer) : s.Quiet s := ⟨rfl, rfl, rfl, fun _ => rfl⟩

theorem Quiet.trans (h : s.Quiet t) (h' : t.Quiet u) : s.Quiet u :=
  ⟨h'.clientFd.trans h.clientFd, h'.serverFd.trans h.serverFd, h'.wakeFd.trans h.wakeFd,
    fun fd => (h'.acquired fd).trans (h.acquired fd)⟩

theorem quiet_use (s : FdServer) (fd : Option Nat) : s.Quiet (s.use fd) :=
  ⟨rfl, rfl, rfl, fun fd => by simp [use]⟩

theorem quiet_drain (s : FdServer) (reads : Nat) : s.Quiet (s.drain reads) := by
  induction reads generalizing s with
  | zero => exact s.quiet_use _
  | succ reads ih => exact (s.quiet_use _).trans (ih _)

/-- The client is gone or the same. -/
def Same (s t : FdServer) : Prop := t.clientFd = none ∨ t.clientFd = s.clientFd

theorem Same.trans (h : s.Same t) (h' : t.Same u) : s.Same u := by
  obtain h' | h' := h'
  · exact .inl h'
  · obtain h | h := h
    · exact .inl (h'.trans h)
    · exact .inr (h'.trans h)

theorem ClientKept.same (h : s.ClientKept t) : s.Same t := h.imp_right (·.1)

theorem readSocket_same (s : FdServer) (onDisconnected : List HookCall) (reads : List ReadResult) :
    s.Same (s.readSocket onDisconnected reads).1 := by
  fun_induction readSocket onDisconnected s reads with
  | case1 s => exact .inr rfl
  | case2 s bytes rs ih => exact ih
  | case3 s rs => exact .inl (closeClient_clientFd _ onDisconnected)
  | case4 s rs => exact .inr rfl
  | case5 s rs ih => exact ih
  | case6 s errno rs => exact .inl (closeClient_clientFd _ onDisconnected)

theorem dispatchFrames_same (handler : List Frame → List HookCall) (onDisconnected : List HookCall)
    (s : FdServer) : s.Same (s.dispatchFrames handler onDisconnected).1 := by
  fun_induction dispatchFrames handler onDisconnected s with
  | case1 s => exact .inr rfl
  | case2 s => exact .inr rfl
  | case3 s available hlen header hvalid hsize s' t hc => exact .inl hc
  | case4 s available hlen header hvalid hsize s' t hc ih =>
    exact (callback_kept s' _).same.trans ih
  | case5 s => exact .inl (s.closeClient_clientFd onDisconnected)

theorem readClient_same (handler : List Frame → List HookCall) (onDisconnected : List HookCall)
    (s : FdServer) (reads : List ReadResult) :
    s.Same (s.readClient handler onDisconnected reads).1 := by
  have hread := s.readSocket_same onDisconnected reads
  unfold readClient
  split
  · next t result he =>
    rw [he] at hread
    exact hread
  · next t he =>
    rw [he] at hread
    have hdispatch := hread.trans (t.dispatchFrames_same handler onDisconnected)
    split
    · next u result he' =>
      rw [he'] at hdispatch
      exact hdispatch
    · next u he' =>
      rw [he'] at hdispatch
      refine hdispatch.trans (.inr ?_)
      unfold compact
      split_ifs <;> rfl

/-- The kernel has returned the descriptor of a new connection, and the client is that or gone. -/
def Accepted (s t : FdServer) : Prop :=
  ∃ fd, s.calls ++ [.use s.serverFd] ++ [.acquire fd] <+: t.calls ∧
    (t.clientFd = none ∨ t.clientFd = some fd)

/-- The new connection is registered. -/
theorem adoptClient_ok {fd : Nat} {epollAdd : Except Bytes Unit} {onDisconnected : List HookCall} {new : Bool}
    (h : s.adoptClient fd epollAdd onDisconnected = (t, .ok new)) :
    new = true ∧ t.clientFd = some fd ∧ s.calls <+: t.calls := by
  unfold adoptClient at h
  dsimp only at h
  split at h
  · cases h
  · obtain ⟨rfl, hnew⟩ := Prod.mk.inj h
    cases hnew
    refine ⟨rfl, rfl, (s.replaceClient_safe [] onDisconnected).grown.trans ?_⟩
    exact (List.prefix_append _ _).trans (List.prefix_append _ _)

/-- An `acceptClient` that does not fail. -/
theorem acceptClient_cases {calls : AcceptReturns} {onDisconnected : List HookCall} {new : Bool}
    (h : s.acceptClient calls onDisconnected = (t, .ok new)) :
    new = false ∧ s.Quiet t ∨ new = true ∧ s.Accepted t := by
  unfold acceptClient at h
  dsimp only at h
  split at h
  · obtain ⟨rfl, hnew⟩ := Prod.mk.inj h
    cases hnew
    exact .inl ⟨rfl, s.quiet_use _⟩
  · cases h
  · next fd _ =>
    split at h
    · cases h
    · split at h
      · cases h
      · obtain ⟨hnew, hclient, hgrown⟩ := adoptClient_ok h
        exact .inr ⟨hnew, fd, ((List.prefix_append _ _).trans (List.prefix_append _ _)).trans hgrown,
          .inr hclient⟩

/-- **What a turn does to the client**, when it does not fail. -/
theorem handleEvent_cases (h : s.handleEvent event = (t, .ok ())) :
    s.Quiet t ∨ s.ForClient event ∧ s.Same t ∨ s.wakeFd ≠ some event.fd ∧ s.Accepted t := by
  unfold handleEvent at h
  split_ifs at h with hwake hserver hclient hhangup hinput
  · obtain rfl := (Prod.mk.inj h).1
    refine .inl ?_
    unfold drainWakeFd
    split_ifs
    · exact s.quiet_drain event.drained
    · exact .refl s
  · split at h
    · next he => cases h
    · next u he =>
      obtain rfl := (Prod.mk.inj h).1
      obtain ⟨hnew, -⟩ | ⟨-, fd, hgrown, hfd⟩ := acceptClient_cases he
      · cases hnew
      · have hsafe := callback_safe { u with hooks := u.hooks ++ [.onConnected] } [] event.onConnected
        refine .inr (.inr ⟨hwake, fd, hgrown.trans hsafe.grown, ?_⟩)
        obtain hnone | heq := (callback_kept { u with hooks := u.hooks ++ [.onConnected] }
          event.onConnected).same
        · exact .inl hnone
        · rw [heq]
          exact hfd
    · next u he =>
      obtain rfl := (Prod.mk.inj h).1
      obtain ⟨-, hquiet⟩ | ⟨hnew, -⟩ := acceptClient_cases he
      · exact .inl hquiet
      · cases hnew
  · obtain rfl := (Prod.mk.inj h).1
    exact .inr (.inl ⟨⟨hwake, hserver, hclient⟩, .inl (s.closeClient_clientFd event.onDisconnected)⟩)
  · have hsame := s.readClient_same event.onFrame event.onDisconnected event.reads
    rw [h] at hsame
    exact .inr (.inl ⟨⟨hwake, hserver, hclient⟩, hsame⟩)
  · obtain rfl := (Prod.mk.inj h).1
    exact .inl (.refl s)
  · obtain rfl := (Prod.mk.inj h).1
    exact .inl (.refl s)

/-! ## A batch -/

/-- What is known in a turn: nothing has happened to the client since the events were reported, or no event
is left that could be taken for one of the client, and at most one (`r`) that could be for the server. -/
def Phase (s t : FdServer) (rest : List FdEvent) : Prop :=
  s.Quiet t ∨ (∀ event ∈ rest, t.clientFd ≠ some event.fd) ∧
    ∃ r, ∀ event ∈ rest, event.fd = r ∨ t.wakeFd = some event.fd

/-- What the kernel returns is no member of the server. -/
theorem Accepted.fresh (h : s.Accepted t) {base : List (Op Nat)} (htidy : Tidy base [] s)
    (hkernel : Throughout Fresh t.calls) :
    ∃ fd, fd ∉ s.members ∧ (t.clientFd = none ∨ t.clientFd = some fd) := by
  obtain ⟨fd, hgrown, hclient⟩ := h
  refine ⟨fd, fun hmem => ?_, hclient⟩
  have k := htidy (hkernel.of_prefix (((List.prefix_append _ _).trans (List.prefix_append _ _)).trans hgrown))
  have hfresh : fd ∉ held (s.calls ++ [.use s.serverFd]) := hkernel _ _ hgrown
  rw [held_snoc] at hfresh
  exact hfresh (k.held_eq ▸ List.mem_toFinset.2 hmem)

theorem Reported.tail {rest : List FdEvent} (h : s.Reported (event :: rest)) : s.Reported rest :=
  ⟨(List.nodup_cons.1 h.nodup).2, fun e he => h.registered e (.tail _ he)⟩

theorem Reported.ne {rest : List FdEvent} (h : s.Reported (event :: rest)) {e : FdEvent} (he : e ∈ rest) :
    e.fd ≠ event.fd :=
  fun heq => (List.nodup_cons.1 h.nodup).1 (List.mem_map.2 ⟨e, he, heq⟩)

/-- Of the server and the client one is left. -/
theorem Reported.others {rest : List FdEvent} (h : s.Reported (event :: rest))
    (hwake : s.wakeFd ≠ some event.fd) :
    ∃ r, ∀ e ∈ rest, e.fd = r ∨ s.wakeFd = some e.fd := by
  have hevent := h.registered event (.head _)
  simp only [List.mem_cons, List.not_mem_nil, or_false] at hevent
  obtain hw | hserver | hclient := hevent
  · exact absurd hw.symm hwake
  · refine ⟨s.clientFd.getD 0, fun e he => ?_⟩
    have hmem := h.registered e (.tail _ he)
    simp only [List.mem_cons, List.not_mem_nil, or_false] at hmem
    obtain hw | hs | hc := hmem
    · exact .inr hw.symm
    · exact absurd (Option.some.inj (hs.trans hserver.symm)) (h.ne he)
    · exact .inl (by rw [← hc]; rfl)
  · refine ⟨s.serverFd.getD 0, fun e he => ?_⟩
    have hmem := h.registered e (.tail _ he)
    simp only [List.mem_cons, List.not_mem_nil, or_false] at hmem
    obtain hw | hs | hc := hmem
    · exact .inr hw.symm
    · exact .inl (by rw [← hs]; rfl)
    · exact absurd (Option.some.inj (hc.trans hclient.symm)) (h.ne he)

/-- The wake descriptor of the report is the one of the turn. -/
theorem Safe.wake_event (h : Safe [] s t) {fd : Nat} (hw : s.wakeFd = some fd) : t.wakeFd = some fd :=
  (h.wakeFd (by rw [hw]; rfl)).trans hw

theorem mem_members_of_wake {fd : Nat} (h : s.wakeFd = some fd) : fd ∈ s.members := by
  simp [members, h]

/-- What was registered is a member. -/
theorem Quiet.members (h : s.Quiet t) {fd : Nat} (hmem : some fd ∈ [s.wakeFd, s.serverFd, s.clientFd]) :
    fd ∈ t.members := by
  rw [← h.wakeFd, ← h.serverFd, ← h.clientFd] at hmem
  simp only [List.mem_cons, List.not_mem_nil, or_false] at hmem
  unfold FdServer.members sockets
  rcases hmem with h | h | h <;> simp [← h]

/-- A turn keeps the phase. -/
theorem Phase.turn {base : List (Op Nat)} {rest : List FdEvent} (hreported : s.Reported (event :: rest))
    (hbase : Tidy base [] s) (hs : Safe [] s t) (h : s.Phase t (event :: rest))
    (hturn : t.handleEvent event = (u, .ok ())) (hkernel : Throughout Fresh u.calls) : s.Phase u rest := by
  have hu : Safe [] t u := by
    have := t.handleEvent_safe [] event
    rwa [hturn] at this
  have hwakes : ∀ e : FdEvent, s.wakeFd = some e.fd → u.wakeFd = some e.fd := fun e he =>
    (hs.trans hu).wake_event he
  obtain hquiet | ⟨hclient, hsame⟩ | ⟨hwake, haccepted⟩ := handleEvent_cases hturn
  · obtain h | ⟨hnone, r, hr⟩ := h
    · exact .inl (h.trans hquiet)
    · refine .inr ⟨fun e he => ?_, r, fun e he => ?_⟩
      · rw [hquiet.clientFd]
        exact hnone e (.tail _ he)
      · rw [hquiet.wakeFd]
        exact hr e (.tail _ he)
  · obtain h | ⟨hnone, -⟩ := h
    · obtain ⟨r, hr⟩ := hreported.others (h.wakeFd ▸ hclient.wake)
      refine .inr ⟨fun e he hc => ?_, r, fun e he => (hr e he).imp_right (hwakes e)⟩
      obtain hgone | hkept := hsame
      · rw [hgone] at hc
        cases hc
      · rw [hkept, hclient.client] at hc
        exact hreported.ne he (Option.some.inj hc).symm
    · exact absurd hclient.client (hnone event (.head _))
  · obtain ⟨base', ht, -⟩ := hs.tidy base hbase
    obtain ⟨fd, hfresh, hclient⟩ := haccepted.fresh ht hkernel
    have hother : ∀ e : FdEvent, e.fd ∈ t.members → u.clientFd ≠ some e.fd := by
      intro e he hc
      obtain hgone | hnew := hclient
      · rw [hgone] at hc
        cases hc
      · rw [hnew] at hc
        exact hfresh (Option.some.inj hc ▸ he)
    obtain h | ⟨-, r, hr⟩ := h
    · obtain ⟨r, hr⟩ := hreported.others (h.wakeFd ▸ hwake)
      exact .inr ⟨fun e he => hother e (h.members (hreported.registered e (.tail _ he))), r,
        fun e he => (hr e he).imp_right (hwakes e)⟩
    · have hr' : event.fd = r := (hr event (.head _)).resolve_right hwake
      have hrest : ∀ e ∈ rest, t.wakeFd = some e.fd := fun e he =>
        (hr e (.tail _ he)).resolve_left fun heq => hreported.ne he (heq.trans hr'.symm)
      exact .inr ⟨fun e he => hother e (mem_members_of_wake (hrest e he)), r,
        fun e he => .inr (hu.wake_event (hrest e he))⟩

/-- So do the turns before an event. -/
theorem phase_front {base : List (Op Nat)} (hreported : s.Reported (front ++ back)) (hbase : Tidy base [] s)
    (hs : Safe [] s u) (h : s.Phase u (front ++ back)) (hfront : u.handleEvents front = (t, .ok ()))
    (hkernel : Throughout Fresh t.calls) : s.Phase t back := by
  induction front generalizing u with
  | nil =>
    obtain rfl := (Prod.mk.inj hfront).1
    exact h
  | cons event front ih =>
    rw [handleEvents] at hfront
    split at hfront
    · cases hfront
    · next v he =>
      have hv : Safe [] u v := by
        have := u.handleEvent_safe [] event
        rwa [he] at this
      have hrest := v.handleEvents_safe [] front
      rw [hfront] at hrest
      exact ih hreported.tail (hs.trans hv)
        (h.turn hreported hbase hs he (hkernel.of_prefix hrest.grown)) hfront

end FdServer

open FdServer in
/-- **An event that is handled as one of the client is about the connection that was the client when it
was reported**: the kernel has not returned the number again since. -/
theorem FdObject.pollOnce_current {calls : List FdCall} {s : FdObject} (hrun : FdObject.machine.run {} calls = some s)
    {onDisconnected : List HookCall} {front back : List FdEvent} {event : FdEvent} {t : FdServer}
    (hreported : (s.waiting onDisconnected).Reported (front ++ event :: back))
    (hfront : (s.waiting onDisconnected).handleEvents front = (t, .ok ()))
    (hkernel : Throughout Fresh t.calls) (hclient : t.ForClient event) :
    (s.waiting onDisconnected).clientFd = some event.fd ∧
      t.calls.count (.acquire event.fd) = (s.waiting onDisconnected).calls.count (.acquire event.fd) := by
  obtain ⟨⟨base, hbase⟩, -⟩ := run_tidy hrun
  obtain ⟨base', hwait, -⟩ := (s.waiting_safe [] onDisconnected).tidy base hbase
  obtain h | ⟨hnone, -⟩ := phase_front hreported hwait (.refl _) (.inl (.refl _)) hfront hkernel
  · exact ⟨h.clientFd.symm.trans hclient.client, h.acquired event.fd⟩
  · exact absurd hclient.client (hnone event (.head _))

/-- A connection, whose hang-up is reported after another one on the listening socket. -/
def FdObject.connecting : List FdCall :=
  [.start ⟨{ socket := .ok 3, epollCreate := .ok 4, eventfd := .ok 5 }, 0⟩,
    .pollOnce [] (.events [{ fd := 3, accept := { accept4 := .fd 6 }, onConnected := [.wakeup] }])]

theorem FdObject.pollOnce_current_hangup : ∃ s t, machine.run {} connecting = some s ∧
    (s.waiting []).handleEvents [{ fd := 5 }, { fd := 3 }] = (t, .ok ()) ∧
    (s.waiting []).clientFd = some 6 ∧ t.calls.count (.acquire 6) = (s.waiting []).calls.count (.acquire 6) := by
  obtain ⟨s, hrun⟩ : ∃ s, machine.run {} connecting = some s := ⟨_, rfl⟩
  have hreported : (s.waiting []).Reported ([{ fd := 5 }, { fd := 3 }] ++ { fd := 6, hangup := true } :: []) := by
    cases hrun
    exact ⟨by decide, by decide⟩
  obtain ⟨t, hfront, hkernel, hclient⟩ : ∃ t,
      (s.waiting []).handleEvents [{ fd := 5 }, { fd := 3 }] = (t, .ok ()) ∧ Throughout Fresh t.calls ∧
        t.ForClient { fd := 6, hangup := true } := by
    cases hrun
    exact ⟨_, rfl, by decide, ⟨by decide, by decide, by decide⟩⟩
  exact ⟨s, t, hrun, hfront, pollOnce_current hrun hreported hfront hkernel hclient⟩

end Phi.Transport
