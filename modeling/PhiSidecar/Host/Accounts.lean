import PhiSidecar.Host.Results

/-!
# The results that are due

For each id: results that the dispatcher was given, results that are deferred, and results that the
tasks of the backends owe (`due`). `Adds` is what a function of the host does to their sum, with what
it leaves alone; there is one lemma for each function.
-/

set_option autoImplicit false

namespace Phi.Host

open Phi.V1 Phi.Wire Phi.Dispatcher

/-! ## Accounts -/

def counts (commandId : Option CmdId) (id : CmdId) : Nat := if commandId = some id then 1 else 0

/-- A refusal that answers. -/
def Refusal.counts (id : CmdId) : Refusal → Nat
  | .reply result => Host.counts (some result.id) id
  | .report _ => 0

/-- The results that a worker's tasks owe. -/
def Worker.owes (id : CmdId) (w : Worker) : Nat :=
  w.backend.tasks.countP (·.commandId = some id) +
    if w.answered then 0 else w.backend.running.toList.countP (·.commandId = some id)

/-- Results sent for a command that still runs inline. -/
def HostThread.early (id : CmdId) : HostThread → Nat
  | .hook call true => counts (commandId call) id
  | _ => 0

/-- The frame of a result with the id. -/
def isResultFor (id : CmdId) (f : OutboundFrame Origin) : Bool :=
  isResult f.origin.call && f.correlationId = id

namespace SidecarHost

variable {s t u : SidecarHost} {id : CmdId} {k l : Nat}

/-- Results that the dispatcher was given. -/
def sent (s : SidecarHost) (id : CmdId) : Nat :=
  s.queues.dispatcher.history.returned.countP (isResultFor id)

def deferred (s : SidecarHost) (id : CmdId) : Nat :=
  s.queues.draining.countP (·.id = id) + s.queues.resultQueue.countP (·.id = id)

def owed (s : SidecarHost) (id : CmdId) : Nat :=
  (s.instances.map (Worker.owes id)).sum + (s.factory.toList.map (Worker.owes id)).sum

def due (s : SidecarHost) (id : CmdId) : Nat := s.sent id + s.deferred id + s.owed id

def served (s : SidecarHost) (id : CmdId) : Nat := s.handled.countP (commandId · = some id)

/-- The books are in order, and no backend that has stopped has a task. -/
structure Sound (s : SidecarHost) : Prop where
  books : Books s.queues.dispatcher
  drained : ∀ t w, s.worker t = some w → w.backend.Drained

/-- `t` comes from `s` with `k` more results due. -/
structure Adds (id : CmdId) (k : Nat) (s t : SidecarHost) : Prop where
  due : t.due id = s.due id + k
  sound : s.Sound → t.Sound
  early : t.thread.early id = s.thread.early id
  handled : t.handled = s.handled
  kept : s.queues.resultQueue ⊆ t.queues.resultQueue

theorem Adds.refl (s : SidecarHost) : Adds id 0 s s := ⟨rfl, fun h => h, rfl, rfl, fun _ h => h⟩

theorem Adds.trans (h : Adds id k s t) (h' : Adds id l t u) : Adds id (k + l) s u where
  due := by rw [h'.due, h.due, Nat.add_assoc]
  sound hs := h'.sound (h.sound hs)
  early := h'.early.trans h.early
  handled := h'.handled.trans h.handled
  kept := fun _ hd => h'.kept (h.kept hd)

theorem Adds.foldl {α : Type} {f : SidecarHost → α → SidecarHost} (h : ∀ s a, Adds id 0 s (f s a))
    (as : List α) (s : SidecarHost) : Adds id 0 s (as.foldl f s) := by
  induction as generalizing s with
  | nil => exact .refl s
  | cons a as ih => exact (h s a).trans (ih (f s a))

/-! ## Backends -/

theorem sum_map_set {ws : List Worker} {i : Nat} {w : Worker} (h : ws[i]? = some w) (v : Worker)
    (f : Worker → Nat) : ((ws.set i v).map f).sum + f w = (ws.map f).sum + f v := by
  induction ws generalizing i with
  | nil => cases h
  | cons x ws ih =>
    cases i with
    | zero =>
      cases h
      simp only [List.set_cons_zero, List.map_cons, List.sum_cons]
      omega
    | succ i =>
      have := ih (i := i) h
      simp only [List.set_cons_succ, List.map_cons, List.sum_cons]
      omega

theorem setWorker_owed {th : Thread} {w : Worker} (h : s.worker th = some w) (v : Worker) :
    (s.setWorker th v).owed id + w.owes id = s.owed id + v.owes id := by
  cases th with
  | factory =>
    have h : s.factory = some w := h
    simp only [owed, setWorker, h, Option.toList_some, List.map_cons, List.map_nil, List.sum_cons,
      List.sum_nil]
    omega
  | runtime i =>
    have := sum_map_set h v (Worker.owes id)
    simp only [owed, setWorker]
    omega

theorem setWorker_worker {th th' : Thread} {w v w' : Worker} (h : s.worker th = some w)
    (h' : (s.setWorker th v).worker th' = some w') : w' = v ∨ s.worker th' = some w' := by
  cases th with
  | factory =>
    cases th' with
    | factory => cases h'; exact .inl rfl
    | runtime j => exact .inr h'
  | runtime i =>
    cases th' with
    | factory => exact .inr h'
    | runtime j =>
      simp only [worker, setWorker, List.getElem?_set] at h' ⊢
      split_ifs at h'
      · cases h'; exact .inl rfl
      · exact .inr h'

theorem setWorker_due {th : Thread} {w : Worker} (h : s.worker th = some w) (v : Worker) :
    (s.setWorker th v).due id + w.owes id = s.due id + v.owes id := by
  have ho := @setWorker_owed s id th w h v
  have hq : (s.setWorker th v).queues = s.queues := by cases th <;> rfl
  simp only [due, sent, deferred, hq]
  omega

theorem setWorker_sound {th : Thread} {w v : Worker} (h : s.worker th = some w)
    (hv : w.backend.Drained → v.backend.Drained) (hs : s.Sound) : (s.setWorker th v).Sound := by
  refine ⟨?_, fun th' w' hw' => ?_⟩
  · cases th <;> exact hs.books
  · rcases setWorker_worker h hw' with rfl | hw'
    · exact hv (hs.drained th w h)
    · exact hs.drained th' w' hw'

/-- A worker that owes `k` more results. -/
theorem Adds.setWorker {th : Thread} {w v : Worker} (h : s.worker th = some w)
    (hk : v.owes id = w.owes id + k) (hv : w.backend.Drained → v.backend.Drained) :
    Adds id k s (s.setWorker th v) where
  due := by
    have := @setWorker_due s id th w h v
    omega
  sound := setWorker_sound h hv
  early := by cases th <;> rfl
  handled := by cases th <;> rfl
  kept := by cases th <;> exact fun _ h => h

/-- A step of a backend that keeps what its worker owes. -/
theorem Adds.onBackend {f : Backend Task → Backend Task} (th : Thread)
    (hf : ∀ b, (f b).tasks = b.tasks ∧ (f b).running = b.running) (hd : ∀ b, b.Drained → (f b).Drained) :
    Adds id 0 s (s.onBackend th f) := by
  unfold SidecarHost.onBackend
  cases h : s.worker th with
  | none => exact .refl s
  | some w =>
    refine .setWorker h ?_ (hd w.backend)
    simp only [Worker.owes, (hf w.backend).1, (hf w.backend).2, Nat.add_zero]

/-- `execute` adds what the task owes, or refuses it and adds nothing. -/
theorem execute_adds (s : SidecarHost) (th : Thread) (task : Task) :
    (s.execute th task).2 = .ok () ∧ Adds id (counts task.commandId id) s (s.execute th task).1 ∨
      (∃ error, (s.execute th task).2 = .error error) ∧ Adds id 0 s (s.execute th task).1 := by
  unfold execute
  cases h : s.worker th with
  | none => exact .inr ⟨⟨_, rfl⟩, .refl s⟩
  | some w =>
    rcases w.backend.execute_cases task with ⟨hr, he, -⟩ | ⟨⟨error, hr⟩, he⟩
    · refine .inl ⟨hr, .setWorker h ?_ (·.execute task)⟩
      simp only [he, Worker.owes, List.countP_append, List.countP_singleton, counts, decide_eq_true_eq]
      omega
    · refine .inr ⟨⟨error, hr⟩, .setWorker h ?_ (·.execute task)⟩
      simp only [he, Worker.owes, Nat.add_zero]

theorem executeOnRuntime_adds (s : SidecarHost) (externalId : ExternalId) (task : Task) :
    (s.executeOnRuntime externalId task).2 = .ok () ∧
        Adds id (counts task.commandId id) s (s.executeOnRuntime externalId task).1 ∨
      (∃ error, (s.executeOnRuntime externalId task).2 = .error error) ∧
        Adds id 0 s (s.executeOnRuntime externalId task).1 := by
  unfold executeOnRuntime
  cases s.lifecycle.findRuntime externalId with
  | none => exact .inr ⟨⟨_, rfl⟩, .refl s⟩
  | some i => exact execute_adds s (.runtime i) task

/-- A task that owes nothing. -/
theorem execute_adds_zero (s : SidecarHost) (th : Thread) {t : Task} (ht : t.commandId = none) :
    Adds id 0 s (s.execute th t).1 := by
  rcases @execute_adds id s th t with ⟨-, h⟩ | ⟨-, h⟩
  · rw [ht] at h
    exact h
  · exact h

/-! ## What a handler does -/

/-- Steps of the queues that have nothing to do with results. -/
theorem Adds.queues {q : HostQueues} (hd : q.dispatcher = s.queues.dispatcher)
    (hr : q.draining = s.queues.draining) (hq : q.resultQueue = s.queues.resultQueue) :
    Adds id 0 s { s with queues := q } where
  due := by simp only [SidecarHost.due, sent, deferred, owed, hd, hr, hq, Nat.add_zero]
  sound hs := ⟨hd ▸ hs.books, hs.drained⟩
  early := rfl
  handled := rfl
  kept := hq ▸ fun _ h => h

theorem reportProtocolError_adds (s : SidecarHost) (message : Utf8String) :
    Adds id 0 s (s.reportProtocolError message) :=
  (Adds.queues (q := s.queues.reportProtocolError message) rfl rfl rfl).trans
    (execute_adds_zero _ _ rfl)

theorem executeOnAllRuntimes_adds (s : SidecarHost) {task : Task} (ht : task.commandId = none) :
    Adds id 0 s (s.executeOnAllRuntimes task) := by
  refine Adds.foldl (fun s runtime => ?_) _ s
  unfold notifyRuntime
  have h : Adds id 0 s _ := execute_adds_zero s (.runtime runtime.2) ht
  split
  · next he => rw [he] at h; exact h
  · next he => rw [he] at h; exact h.trans (reportProtocolError_adds _ _)

theorem onConnection_adds (s : SidecarHost) {task : Task} (ht : task.commandId = none)
    (failed : String) : Adds id 0 s (s.onConnection task failed) := by
  refine Adds.trans (k := 0) (l := 0) ?_ (executeOnAllRuntimes_adds _ ht)
  have h : Adds id 0 s _ := execute_adds_zero s .factory ht
  split_ifs
  · exact .refl s
  · split
    · next he => rw [he] at h; exact h
    · next he => rw [he] at h; exact h.trans (reportProtocolError_adds _ _)

/-- What the transport does is nothing to results. -/
theorem net_adds {a : Net} (ha : a.isTraffic = true) {q : HostQueues}
    (h : s.queues.step (.net a) = some q) : Adds id 0 s { s with queues := q } := by
  obtain ⟨d, hd, rfl⟩ := Option.map_eq_some_iff.1 h
  obtain ⟨-, hr, -⟩ := traffic_cases ha hd
  refine ⟨?_, fun hs => ⟨hs.books.traffic ha hd, hs.drained⟩, rfl, rfl, fun _ h => h⟩
  simp only [SidecarHost.due, sent, deferred, owed, hr, Nat.add_zero]

/-- Backends without a task are added. -/
theorem Adds.backends {lifecycle : Lifecycle} {ws : List Worker}
    (hw : ∀ w ∈ ws, w.owes id = 0 ∧ w.backend.Drained) :
    Adds id 0 s { s with lifecycle, instances := s.instances ++ ws } where
  due := by
    have h : (ws.map (Worker.owes id)).sum = 0 := by
      rw [List.map_congr_left (g := fun _ => 0) fun w hm => (hw w hm).1]
      simp
    simp only [SidecarHost.due, sent, deferred, owed, List.map_append, List.sum_append, h, Nat.add_zero]
  sound hs := by
    refine ⟨hs.books, fun th w h => ?_⟩
    cases th with
    | factory => exact hs.drained .factory w h
    | runtime i =>
      rcases List.mem_append.1 (List.mem_of_getElem? h) with hm | hm
      · obtain ⟨j, hj⟩ := List.getElem?_of_mem hm
        exact hs.drained (.runtime j) w hj
      · exact (hw w hm).2
  early := rfl
  handled := rfl
  kept := fun _ h => h

theorem onLifecycle_adds (s : SidecarHost) (f : Lifecycle → Lifecycle) :
    Adds id 0 s (s.onLifecycle f) := by
  refine Adds.trans (t := { s with lifecycle := f s.lifecycle, instances := s.instances ++ _ })
    (.backends fun w hw => ?_) (Adds.foldl reportProtocolError_adds _ _)
  rw [List.eq_of_mem_replicate hw]
  exact ⟨rfl, .new⟩

theorem dispatchConfig_adds (s : SidecarHost) (i : Nat) (request : ConfigChangedRequest)
    (a : CreateAnswers) : Adds id 0 s (s.dispatchConfig i request a) := by
  have h : Adds id 0 s _ := execute_adds_zero s (.runtime i) (t := .hook (.onConfigChanged request)) rfl
  exact h.trans (onLifecycle_adds _ (·.configChanged request a _))

/-- A frame is handed to the dispatcher. -/
theorem Adds.queueOutboundFrame {q : HostQueues} {f : OutboundFrame Origin} (hf : Made f) {clock : Clock}
    (hd : q.dispatcher = (s.queues.dispatcher.queueOutboundFrame f clock).1)
    (hr : q.draining = s.queues.draining) (hq : q.resultQueue = s.queues.resultQueue) :
    Adds id (if isResultFor id f then 1 else 0) s { s with queues := q } where
  due := by
    have hret := (s.queues.dispatcher.queueOutboundFrame_returned f clock).2
    simp only [SidecarHost.due, sent, deferred, owed, hd, hr, hq, hret, List.countP_append,
      List.countP_singleton]
    omega
  sound hs := ⟨hd ▸ hs.books.queueOutboundFrame hf clock, hs.drained⟩
  early := rfl
  handled := rfl
  kept := hq ▸ fun _ h => h

theorem made_call (caller : Caller) (seq : Nat) (call : Outbound) (now : Int64) :
    Made (call.frame ⟨caller, seq, call⟩ now) := ⟨now, by rw [Outbound.frame_origin]⟩

theorem isResultFor_frame (result : CommandResult) {origin : Origin} (h : origin.call = result.outbound)
    (now : Int64) : (if isResultFor id (result.frame origin now) then 1 else 0) =
      counts (some result.id) id := by
  obtain ⟨-, -, hc⟩ := frame_response result origin now
  simp [isResultFor, hc, h, counts]

/-- A reply is one more result for its id. -/
theorem refuse_adds (s : SidecarHost) (now : Int64) (clock : Clock) (r : Refusal) :
    Adds id (r.counts id) s (s.refuse now clock r) := by
  cases r with
  | report message => exact reportProtocolError_adds s message
  | reply result =>
    have h : Adds id _ s _ := Adds.queueOutboundFrame
      (q := (s.queues.call .host result.outbound now clock).1)
      (made_call .host s.queues.seq result.outbound now) rfl rfl rfl
    rw [← CommandResult.frame_eq, isResultFor_frame result rfl] at h
    exact h

/-- Any other outbound call is no result. -/
theorem call_adds (s : SidecarHost) {call : Outbound} (h : isResult call = false) (caller : Caller)
    (now : Int64) (clock : Clock) :
    Adds id 0 s { s with queues := (s.queues.call caller call now clock).1 } := by
  have h' : Adds id _ s _ := Adds.queueOutboundFrame (q := (s.queues.call caller call now clock).1)
    (made_call caller s.queues.seq call now) rfl rfl rfl
  simpa [isResultFor, h] using h'

/-- A result that a hook sends is deferred. -/
theorem sendResult_adds (hid : id ≠ 0) (s : SidecarHost) (caller : Caller) (result : CommandResult)
    (now : Int64) : Adds id (counts (some result.id) id) s (s.sendResult caller result now) ∧
      (result.id = id → ∃ d ∈ (s.sendResult caller result now).queues.resultQueue, d.id = id) := by
  unfold sendResult
  by_cases h0 : result.id = 0
  · rw [if_pos h0]
    have hne : result.id ≠ id := fun h => hid (h ▸ h0)
    exact ⟨by simpa [counts, hne] using Adds.refl s, fun h => absurd h hne⟩
  · rw [if_neg h0]
    refine ⟨⟨?_, fun hs => ⟨hs.books, hs.drained⟩, rfl, rfl, fun _ h => List.mem_append_left _ h⟩,
      fun h => ⟨_, List.mem_append_right _ (.head _), (HostQueues.normalizeResult_id now result).trans h⟩⟩
    simp only [SidecarHost.due, sent, deferred, owed, HostQueues.queueDeferredResult, List.countP_append,
      List.countP_singleton, DeferredResult.id, HostQueues.normalizeResult_id, counts, Option.some.injEq,
      decide_eq_true_eq]
    omega

/-! ## What a worker does -/

theorem answers_commandId {call : HandlerCall} {result : CommandResult} (h : answers call result = true) :
    commandId call = some result.id := by
  simp only [answers, Bool.and_eq_true, beq_iff_eq] at h
  exact h.1

/-- The running hook sends its result: what it owed is deferred. -/
theorem pay_adds (hid : id ≠ 0) {th : Thread} {w : Worker} (h : s.worker th = some w)
    {call : HandlerCall} (hr : w.backend.running = some (.hook call)) (ha : w.answered = false)
    {result : CommandResult} (hans : answers call result = true) (caller : Caller) (now : Int64) :
    Adds id 0 s ((s.setWorker th { w with answered := true }).sendResult caller result now) := by
  obtain ⟨hsend, -⟩ := sendResult_adds hid (s.setWorker th { w with answered := true }) caller result now
  have howes : w.owes id = ({ w with answered := true } : Worker).owes id + counts (some result.id) id := by
    simp only [Worker.owes, ha, hr, Bool.false_eq_true, if_false, if_true, Nat.add_zero,
      Option.toList_some, List.countP_singleton, Task.commandId, answers_commandId hans, counts,
      decide_eq_true_eq]
  refine ⟨?_, fun hs => hsend.sound (setWorker_sound h (fun hd => hd) hs), ?_, ?_, ?_⟩
  · have hset := @setWorker_due s id th w h { w with answered := true }
    have := hsend.due
    omega
  · exact hsend.early.trans (by cases th <;> rfl)
  · exact hsend.handled.trans (by cases th <;> rfl)
  · exact fun d hd => hsend.kept (by cases th <;> exact hd)

/-- **A worker pays what it owes**, and nothing else. -/
theorem workerStep_adds (hid : id ≠ 0) {th : Thread} {w : Worker} (h : s.worker th = some w)
    {a : WorkerAct} (hs : s.workerStep th w a = some t) : Adds id 0 s t := by
  cases a with
  | take =>
    obtain ⟨b, hb, rfl⟩ := Option.map_eq_some_iff.1 hs
    obtain ⟨task, tasks, -, hr, ht, hb'⟩ := Backend.take_cases hb
    refine .setWorker h ?_ fun _ => .take hb
    simp only [Worker.owes, hb', hr, ht, List.countP_cons, Option.toList_some, Option.toList_none,
      List.countP_nil, Bool.false_eq_true, if_false, ite_self, Nat.zero_add, Nat.add_zero]
  | sendResult result now =>
    simp only [workerStep] at hs
    split at hs
    · next call hr =>
      split_ifs at hs with hans
      cases hs
      simp only [Bool.and_eq_true, Bool.not_eq_true'] at hans
      exact pay_adds hid h hr hans.1 hans.2 _ _
    · cases hs
  | finish =>
    simp only [workerStep] at hs
    split at hs
    · cases hs
    · next task hr =>
      split_ifs at hs with hret
      cases hs
      refine .setWorker h ?_ (·.finish)
      have hpaid : (if w.answered = true then 0 else
          w.backend.running.toList.countP (·.commandId = some id)) = 0 := by
        simp only [mayReturn, Bool.or_eq_true, Option.isNone_iff_eq_none] at hret
        rcases hret with hnone | hans
        · simp [hr, hnone]
        · rw [if_pos hans]
      rw [Worker.owes, Worker.owes, hpaid]
      rfl
  | exit =>
    obtain ⟨b, hb, rfl⟩ := Option.map_eq_some_iff.1 hs
    obtain ⟨-, -, hb'⟩ := Backend.exit_cases hb
    refine .setWorker h ?_ fun _ => .exit hb
    rw [hb']
    rfl

/-- A backend whose worker has left its loop stops without discarding a task. -/
theorem stopped_adds (hs : s.Sound) {th : Thread} (hx : s.hasExited th = true) :
    Adds id 0 s (s.onBackend th .stopped) := by
  unfold hasExited at hx
  unfold onBackend
  cases h : s.worker th with
  | none => exact .refl s
  | some w =>
    rw [h] at hx
    have hp := (hs.drained th w h).stopped_pending hx
    have hp' := (hs.drained th w h).pending hx
    rw [hp'] at hp
    simp only [Backend.pending, List.append_eq_nil_iff, Option.toList_eq_nil_iff] at hp hp'
    refine .setWorker h ?_ (·.stopped)
    simp only [Worker.owes, hp.1, hp.2, hp'.1, hp'.2, Nat.add_zero]

end SidecarHost

end Phi.Host
