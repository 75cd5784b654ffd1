import PhiSidecar.Host.ExecutionBackend

/-!
# The backend runs every accepted task once, in order

`Inv` ties each worker to its `State` and the lifecycle caller to the cycle of `*m_state`.

* `step_inv`: every step keeps it; `WorkStep` says what a step of a worker does.
* `worker_completes`: a worker that is told to stop runs everything its cycle has accepted.
* `run_backend`: **what holds of every cycle of a run**.
-/

set_option autoImplicit false

namespace Phi.Host.DefaultInstanceExecutionBackend

open Phi.V1

universe u

variable {α : Type u} {s t : DefaultInstanceExecutionBackend α} {i j k : Nat} {w w' : Worker α}

/-- In the loop, not told to leave it yet. -/
def Pc.InLoop (pc : Pc α) : Prop := pc ≠ .leaving ∧ pc ≠ .exited

/-! ## The invariant -/

structure WorkerOk (s : DefaultInstanceExecutionBackend α) (i : Nat) (w : Worker α) : Prop where
  state_le : w.state ≤ s.current
  order : w.begun = w.ended ++ w.pc.task
  live : w.pc ≠ .exited → (s.states w.state).worker = i ∧
    (s.states w.state).workerExited = false ∧ w.accepted = w.begun ++ (s.states w.state).tasks
  leaving : w.pc = .leaving →
    (s.states w.state).tasks = [] ∧ (s.states w.state).stopRequested = true
  exited : w.pc = .exited → w.accepted = w.begun
  stopped : w.stopResult = some true → w.pc = .exited
  timedOut : w.stopResult = some false → w.state < s.current

/-- `w` is the worker of `*m_state`, in a cycle that no `stop` has ended. -/
structure Serves (s : DefaultInstanceExecutionBackend α) (i : Nat) (w : Worker α) : Prop where
  get : s.workers[i]? = some w
  last : i + 1 = s.workers.length
  state : w.state = s.current
  worker : s.state.worker = i
  stopResult : w.stopResult = none

/-- No worker uses `*m_state` any more. -/
def Quiet (s : DefaultInstanceExecutionBackend α) : Prop :=
  ∀ (i : Nat) w, s.workers[i]? = some w → w.state = s.current → w.pc = .exited

/-- Between cycles. -/
structure Resting (s : DefaultInstanceExecutionBackend α) : Prop where
  thread : s.thread = none
  serving : s.serving = false
  started : s.state.started = false
  stopRequested : s.state.stopRequested = false
  tasks : s.state.tasks = []
  quiet : s.Quiet

/-- A worker is in its loop; `started` says whether `start` has come to its end. -/
structure Running (s : DefaultInstanceExecutionBackend α) (started : Bool) (i : Nat) (w : Worker α) :
    Prop where
  thread : s.thread = some i
  serving : s.serving = started
  started : s.state.started = started
  stopRequested : s.state.stopRequested = false
  serves : s.Serves i w
  inLoop : w.pc.InLoop

/-- A `stop` is going on, on the `State` numbered `k`. -/
structure Stopping (s : DefaultInstanceExecutionBackend α) (k i : Nat) (w : Worker α) : Prop where
  state : k = s.current
  thread : s.thread = none
  serving : s.serving = false
  stopRequested : s.state.stopRequested = true
  serves : s.Serves i w

/-- What the lifecycle caller can rely on, depending on where it is. -/
def CallerAt (s : DefaultInstanceExecutionBackend α) : Caller → Prop
  | .idle => s.Resting ∨ ∃ i w, s.Running true i w
  | .startThread => s.Resting ∧ s.state.workerExited = false
  | .startFlag => ∃ i w, s.Running false i w
  | .stopWait k i | .stopReplace k i => ∃ w, s.Stopping k i w
  | .stopJoin k i | .stopClear k (some i) => ∃ w, s.Stopping k i w ∧ w.pc = .exited
  | .stopClear _ none => False

structure Inv (s : DefaultInstanceExecutionBackend α) : Prop where
  fresh : ∀ k, s.current < k → s.states k = {}
  old : ∀ k < s.current, (s.states k).stopRequested = true
  worker : ∀ i w, s.workers[i]? = some w → s.WorkerOk i w
  caller : s.CallerAt s.caller
  accepted : s.accepted = s.workers.flatMap (·.accepted)
  executing : ∀ call ∈ s.executing, call.1 ≤ s.current

theorem Inv.new : ({} : DefaultInstanceExecutionBackend α).Inv :=
  ⟨fun _ _ => rfl, fun k hk => absurd hk (Nat.not_lt_zero k), fun i w h => by simp at h,
    .inl ⟨rfl, rfl, rfl, rfl, rfl, fun i w h _ => by simp at h⟩, rfl, fun c hc => by cases hc⟩

/-- From one state to another, phase by phase. -/
theorem CallerAt.map {c : Caller}
    (hrest : s.Resting → t.Resting ∧ t.state.workerExited = s.state.workerExited)
    (hrun : ∀ started i w, s.Running started i w → ∃ w', t.Running started i w')
    (hstop : ∀ k i w, s.Stopping k i w → ∃ w', t.Stopping k i w' ∧ (w.pc = .exited → w'.pc = .exited))
    (hc : s.CallerAt c) : t.CallerAt c := by
  cases c with
  | idle =>
    obtain hr | ⟨i, w, hr⟩ := hc
    · exact .inl (hrest hr).1
    · exact .inr ⟨i, hrun true i w hr⟩
  | startThread => exact ⟨(hrest hc.1).1, (hrest hc.1).2.trans hc.2⟩
  | startFlag =>
    obtain ⟨i, w, hr⟩ := hc
    exact ⟨i, hrun false i w hr⟩
  | stopWait k i =>
    obtain ⟨w, hr⟩ := hc
    obtain ⟨w', hr', -⟩ := hstop k i w hr
    exact ⟨w', hr'⟩
  | stopReplace k i =>
    obtain ⟨w, hr⟩ := hc
    obtain ⟨w', hr', -⟩ := hstop k i w hr
    exact ⟨w', hr'⟩
  | stopJoin k i =>
    obtain ⟨w, hr, he⟩ := hc
    obtain ⟨w', hr', he'⟩ := hstop k i w hr
    exact ⟨w', hr', he' he⟩
  | stopClear k thread =>
    cases thread with
    | none => exact hc.elim
    | some i =>
      obtain ⟨w, hr, he⟩ := hc
      obtain ⟨w', hr', he'⟩ := hstop k i w hr
      exact ⟨w', hr', he' he⟩

/-! ## Frames -/

/-- What a worker relies on in its `State`. -/
structure Keeps (a b : State α) : Prop where
  worker : b.worker = a.worker
  workerExited : b.workerExited = a.workerExited
  tasks : b.tasks = a.tasks
  stopRequested : a.stopRequested = true → b.stopRequested = true

theorem Keeps.refl (a : State α) : Keeps a a := ⟨rfl, rfl, rfl, id⟩

theorem WorkerOk.frame (h : s.WorkerOk i w) (hc : s.current ≤ t.current)
    (hk : w.pc ≠ .exited → Keeps (s.states w.state) (t.states w.state)) : t.WorkerOk i w where
  state_le := Nat.le_trans h.state_le hc
  order := h.order
  live he := by
    have hk := hk he
    rw [hk.worker, hk.workerExited, hk.tasks]
    exact h.live he
  leaving he := by
    have hk := hk (by rw [he]; nofun)
    obtain ⟨h1, h2⟩ := h.leaving he
    exact ⟨hk.tasks.trans h1, hk.stopRequested h2⟩
  exited := h.exited
  stopped := h.stopped
  timedOut h' := Nat.lt_of_lt_of_le (h.timedOut h') hc

/-- Two workers in their loops have different states. -/
theorem Inv.unique (h : s.Inv) (hi : s.workers[i]? = some w) (hj : s.workers[j]? = some w')
    (hw : w.pc ≠ .exited) (hw' : w'.pc ≠ .exited) (hs : w.state = w'.state) : i = j := by
  have h1 := ((h.worker i w hi).live hw).1
  have h2 := ((h.worker j w' hj).live hw').1
  rw [hs] at h1
  exact h1.symm.trans h2

/-- When the worker of `*m_state` has exited, nobody uses it. -/
theorem Inv.quiet (h : s.Inv) (hs : s.Serves i w) (he : w.pc = .exited) : s.Quiet := by
  intro j w' hj hstate
  by_contra hne
  have hw := ((h.worker j w' hj).live hne).1
  rw [hstate] at hw
  have hij : i = j := hs.worker.symm.trans hw
  rw [← hij, hs.get] at hj
  cases hj
  exact hne he

/-- An `execute` is only accepted in a running cycle. -/
theorem Inv.open (h : s.Inv) (hk : k ≤ s.current) (hstarted : (s.states k).started = true)
    (hstop : (s.states k).stopRequested = false) :
    k = s.current ∧ s.caller = .idle ∧ ∃ i w, s.Running true i w := by
  obtain hlt | rfl := Nat.lt_or_eq_of_le hk
  · rw [h.old k hlt] at hstop
    cases hstop
  have hc := h.caller
  have hrest : ¬ s.Resting := fun hr => by
    rw [show (s.states s.current).started = _ from hr.started] at hstarted; cases hstarted
  have hrun : ∀ i w, ¬ s.Running false i w := fun i w hr => by
    rw [show (s.states s.current).started = _ from hr.started] at hstarted; cases hstarted
  have hstopping : ∀ k i w, ¬ s.Stopping k i w := fun k i w hr => by
    rw [show (s.states s.current).stopRequested = _ from hr.stopRequested] at hstop; cases hstop
  cases hcaller : s.caller with
  | idle => rw [hcaller] at hc; exact ⟨rfl, rfl, hc.resolve_left hrest⟩
  | startThread => rw [hcaller] at hc; exact absurd hc.1 hrest
  | startFlag =>
    rw [hcaller] at hc
    obtain ⟨i, w, hc⟩ := hc
    exact absurd hc (hrun i w)
  | stopWait k i =>
    rw [hcaller] at hc
    obtain ⟨w, hc⟩ := hc
    exact absurd hc (hstopping k i w)
  | stopReplace k i =>
    rw [hcaller] at hc
    obtain ⟨w, hc⟩ := hc
    exact absurd hc (hstopping k i w)
  | stopJoin k i =>
    rw [hcaller] at hc
    obtain ⟨w, hc, -⟩ := hc
    exact absurd hc (hstopping k i w)
  | stopClear k thread =>
    rw [hcaller] at hc
    cases thread with
    | none => exact hc.elim
    | some i =>
      obtain ⟨w, hc, -⟩ := hc
      exact absurd hc (hstopping k i w)

/-! ## Inversion -/

/-- The steps, with what each of them needs. -/
inductive Step (s : DefaultInstanceExecutionBackend α) :
    Act α → DefaultInstanceExecutionBackend α → Prop
  | empty : Step s (.execute none) (s.refuse (lit "Execution task is empty"))
  | execute (task : α) :
      Step s (.execute (some task)) { s with executing := s.executing ++ [(s.current, task)] }
  | lock {k : Nat} {call : Nat × α} : s.executing[k]? = some call →
      Step s (.lock k) ({ s with executing := s.executing.eraseIdx k }.push call.1 call.2)
  | start : s.caller = .idle → Step s .start s.start
  | createThread (failure : Option Bytes) : s.caller = .startThread →
      Step s (.createThread failure) (s.createThread failure)
  | setStarted : s.caller = .startFlag → Step s .setStarted s.setStarted
  | stop : s.caller = .idle → Step s .stop s.stop
  | exited {k i : Nat} : s.caller = .stopWait k i → (s.states k).workerExited = true →
      Step s .waited { s with caller := .stopJoin k i }
  | timedOut {k i : Nat} : s.caller = .stopWait k i →
      Step s .waited { s with caller := .stopReplace k i }
  | join {k i : Nat} : s.caller = .stopJoin k i →
      Step s .join { s with caller := .stopClear k (some i) }
  | clear {k : Nat} {thread : Option Nat} : s.caller = .stopClear k thread →
      Step s .clear (s.clear k thread)
  | replace {k i : Nat} : s.caller = .stopReplace k i → Step s .replace (s.replace k i)
  | work {i : Nat} {w : Worker α} {t : DefaultInstanceExecutionBackend α} :
      s.workers[i]? = some w → s.work i w = some t → Step s (.work i) t

theorem step_cases {a : Act α} (h : s.step a = some t) : Step s a t := by
  cases a with
  | execute task =>
    cases task with
    | none => cases h; exact .empty
    | some task => cases h; exact .execute task
  | lock k =>
    obtain ⟨call, hcall, rfl⟩ := Option.map_eq_some_iff.1 h
    exact .lock hcall
  | work i =>
    obtain ⟨w, hi, hw⟩ := Option.bind_eq_some_iff.1 h
    exact .work hi hw
  | waited =>
    simp only [step] at h
    split at h
    · next k i hc =>
      split at h
      · next hx => cases h; exact .exited hc hx
      · cases h; exact .timedOut hc
    · cases h
  | join =>
    simp only [step] at h
    split at h
    · next k i hc =>
      split at h
      · cases h; exact .join hc
      · cases h
    · cases h
  | start =>
    simp only [step] at h
    split at h
    · next hc => cases h; exact .start hc
    · cases h
  | createThread failure =>
    simp only [step] at h
    split at h
    · next hc => cases h; exact .createThread failure hc
    · cases h
  | setStarted =>
    simp only [step] at h
    split at h
    · next hc => cases h; exact .setStarted hc
    · cases h
  | stop =>
    simp only [step] at h
    split at h
    · next hc => cases h; exact .stop hc
    · cases h
  | clear =>
    simp only [step] at h
    split at h
    · next k thread hc => cases h; exact .clear hc
    · cases h
  | replace =>
    simp only [step] at h
    split at h
    · next k i hc => cases h; exact .replace hc
    · cases h

/-- What `push` does: it refuses the task, or appends it in a running cycle. -/
theorem push_cases (h : s.Inv) (hk : k ≤ s.current) (task : α) :
    (∃ error, s.push k task = s.refuse error) ∨ s.caller = .idle ∧ ∃ i w, s.Running true i w ∧
      s.push k task = ({ s with accepted := s.accepted ++ [task] }
        |>.setState s.current { s.state with tasks := s.state.tasks ++ [task] }
        |>.modifyWorker s.state.worker fun w => { w with accepted := w.accepted ++ [task] }) := by
  unfold push
  simp only [Bool.not_eq_true']
  by_cases hstarted : (s.states k).started = false
  · rw [if_pos hstarted]
    exact .inl ⟨_, rfl⟩
  · rw [if_neg hstarted]
    by_cases hstop : (s.states k).stopRequested = true
    · rw [if_pos hstop]
      exact .inl ⟨_, rfl⟩
    · rw [if_neg hstop]
      obtain ⟨rfl, hcaller, i, w, hr⟩ := h.open hk (by simpa using hstarted) (by simpa using hstop)
      exact .inr ⟨hcaller, i, w, hr, rfl⟩

/-! ## Steps of a worker -/

/-- How many steps a worker has before it when it is told to stop. -/
def Worker.todo (w : Worker α) : Nat :=
  2 * (w.accepted.length - w.begun.length) +
    match w.pc with
    | .loop => 2
    | .running _ => 3
    | .leaving => 1
    | .exited => 0

/-- What a step of the worker `w` makes of it and of its `State`. -/
structure WorkStep (s : DefaultInstanceExecutionBackend α) (w : Worker α) (state' : State α)
    (w' : Worker α) : Prop where
  live : w.pc ≠ .exited
  started : state'.started = (s.states w.state).started
  stopRequested : state'.stopRequested = (s.states w.state).stopRequested
  worker : state'.worker = (s.states w.state).worker
  state : w'.state = w.state
  stopResult : w'.stopResult = w.stopResult
  accepted : w'.accepted = w.accepted
  order : w'.begun = w'.ended ++ w'.pc.task
  live' : w'.pc ≠ .exited → state'.workerExited = false ∧ w'.accepted = w'.begun ++ state'.tasks
  leaving : w'.pc = .leaving → state'.tasks = [] ∧ state'.stopRequested = true
  exited : w'.pc = .exited → w'.accepted = w'.begun
  inLoop : state'.stopRequested = false → w'.pc.InLoop
  todo : w'.todo + 1 = w.todo

theorem work_step (hw : s.WorkerOk i w) (h : s.work i w = some t) :
    ∃ state' w', s.WorkStep w state' w' ∧ t = (s.setState w.state state').setWorker i w' := by
  have hsame : s = s.setState w.state (s.states w.state) := by
    rw [setState, Function.update_eq_self]
  unfold work at h
  simp only at h
  split at h
  · next hpc =>
    obtain ⟨-, hx, hacc⟩ := hw.live (by rw [hpc]; nofun)
    have horder := hw.order
    rw [hpc] at horder
    split at h
    · next htasks =>
      -- told to stop, and nothing is left to run
      split at h
      · next hstop =>
        cases h
        have hnil : w.accepted = w.begun := by rw [hacc, htasks, List.append_nil]
        have hstop' : (s.states w.state).stopRequested ≠ false := by rw [hstop]; nofun
        refine ⟨s.states w.state, { w with pc := .leaving }, ?_, by rw [← hsame]⟩
        exact ⟨by rw [hpc]; nofun, rfl, rfl, rfl, rfl, rfl, rfl, horder, fun _ => ⟨hx, hacc⟩,
          fun _ => ⟨htasks, hstop⟩, nofun, fun hs => absurd hs hstop',
          by simp [Worker.todo, hpc, hnil]⟩
      · cases h
    · next task tasks htasks =>
      cases h
      rw [htasks] at hacc
      refine ⟨{ s.states w.state with tasks },
        { w with pc := .running task, begun := w.begun ++ [task] }, ?_, rfl⟩
      refine ⟨by rw [hpc]; nofun, rfl, rfl, rfl, rfl, rfl, rfl, ?_, fun _ => ⟨hx, ?_⟩, nofun, nofun,
        fun _ => ⟨nofun, nofun⟩, ?_⟩
      · rw [horder]
        simp [Pc.task]
      · rw [hacc]
        simp
      · simp only [Worker.todo, hpc, hacc, List.length_append, List.length_cons, List.length_nil]
        omega
  · next task hpc =>
    -- the task returns, or throws
    cases h
    obtain ⟨-, hx, hacc⟩ := hw.live (by rw [hpc]; nofun)
    have horder := hw.order
    rw [hpc] at horder
    refine ⟨s.states w.state, { w with pc := .loop, ended := w.ended ++ [task] }, ?_,
      by rw [← hsame]⟩
    refine ⟨by rw [hpc]; nofun, rfl, rfl, rfl, rfl, rfl, rfl, ?_, fun _ => ⟨hx, hacc⟩, nofun, nofun,
      fun _ => ⟨nofun, nofun⟩, by simp [Worker.todo, hpc]⟩
    rw [horder]
    simp [Pc.task]
  · next hpc =>
    cases h
    obtain ⟨-, hx, hacc⟩ := hw.live (by rw [hpc]; nofun)
    obtain ⟨htasks, hstop⟩ := hw.leaving hpc
    have horder := hw.order
    rw [hpc] at horder
    rw [htasks, List.append_nil] at hacc
    refine ⟨{ s.states w.state with workerExited := true }, { w with pc := .exited }, ?_, rfl⟩
    have hstop' : (s.states w.state).stopRequested ≠ false := by rw [hstop]; nofun
    exact ⟨by rw [hpc]; nofun, rfl, rfl, rfl, rfl, rfl, rfl, horder, fun hne => absurd rfl hne, nofun,
      fun _ => hacc, fun hs => absurd hs hstop', by simp [Worker.todo, hpc, hacc]⟩
  · cases h

/-- The entries of a list of which one was replaced. -/
theorem get_set {β : Type*} {l : List β} {b c : Nat} {x y : β} (h : (l.set b y)[c]? = some x) :
    c = b ∧ x = y ∨ c ≠ b ∧ l[c]? = some x := by
  rw [List.getElem?_set] at h
  by_cases hbc : b = c
  · rw [if_pos hbc] at h
    split at h
    · exact .inl ⟨hbc.symm, (Option.some.inj h).symm⟩
    · cases h
  · rw [if_neg hbc] at h
    exact .inr ⟨Ne.symm hbc, h⟩

section
variable {state' : State α}

/-- A worker that has not exited does not use a quiet `*m_state`. -/
theorem Quiet.ne (h : s.Quiet) (hi : s.workers[i]? = some w) (hw : w.pc ≠ .exited) :
    s.current ≠ w.state := fun he => hw (h i w hi he.symm)

theorem WorkStep.serves (hs : s.WorkStep w state' w') (hi : s.workers[i]? = some w) {v : Worker α}
    (hv : s.Serves j v) :
    ∃ v', ((s.setState w.state state').setWorker i w').Serves j v' ∧
      (j = i ∧ v = w ∧ v' = w' ∨ v' = v) := by
  have hlt : i < s.workers.length := (List.getElem?_eq_some_iff.1 hi).1
  have hworker : (Function.update s.states w.state state' s.current).worker = j := by
    have hw : (s.states s.current).worker = j := hv.worker
    by_cases hc : s.current = w.state
    · rw [hc, Function.update_self, hs.worker, ← hc, hw]
    · rw [Function.update_of_ne hc, hw]
  have hlen : j + 1 = (s.workers.set i w').length := by rw [List.length_set, hv.last]
  by_cases hij : i = j
  · subst hij
    have hvw : v = w := Option.some.inj (hv.get.symm.trans hi)
    refine ⟨w', ⟨?_, hlen, ?_, hworker, ?_⟩, .inl ⟨rfl, hvw, rfl⟩⟩
    · exact List.getElem?_set_self hlt
    · rw [hs.state, ← hvw]
      exact hv.state
    · rw [hs.stopResult, ← hvw]
      exact hv.stopResult
  · refine ⟨v, ⟨?_, hlen, hv.state, hworker, hv.stopResult⟩, .inr rfl⟩
    exact (List.getElem?_set_ne hij).trans hv.get

/-- `*m_state` after a step of a worker. -/
theorem WorkStep.state_eq (hs : s.WorkStep w state' w') :
    ((s.setState w.state state').setWorker i w').state.started = s.state.started ∧
      ((s.setState w.state state').setWorker i w').state.stopRequested = s.state.stopRequested := by
  show (Function.update s.states w.state state' s.current).started = (s.states s.current).started ∧
    (Function.update s.states w.state state' s.current).stopRequested =
      (s.states s.current).stopRequested
  by_cases hc : s.current = w.state
  · rw [hc, Function.update_self]
    exact ⟨hs.started, hs.stopRequested⟩
  · rw [Function.update_of_ne hc]
    exact ⟨rfl, rfl⟩

theorem WorkStep.resting (hs : s.WorkStep w state' w') (hi : s.workers[i]? = some w)
    (hr : s.Resting) :
    ((s.setState w.state state').setWorker i w').Resting ∧
      ((s.setState w.state state').setWorker i w').state = s.state := by
  have hne := hr.quiet.ne hi hs.live
  have hstate : ((s.setState w.state state').setWorker i w').state = s.state :=
    Function.update_of_ne hne _ _
  refine ⟨⟨hr.thread, hr.serving, ?_, ?_, ?_, ?_⟩, hstate⟩
  · rw [hstate]; exact hr.started
  · rw [hstate]; exact hr.stopRequested
  · rw [hstate]; exact hr.tasks
  · intro j v hj hv
    obtain ⟨-, rfl⟩ | ⟨-, hj⟩ := get_set hj
    · exact absurd (hv.symm.trans hs.state) hne
    · exact hr.quiet j v hj hv

theorem WorkStep.running (hs : s.WorkStep w state' w') (hi : s.workers[i]? = some w)
    {started : Bool} {v : Worker α} (hr : s.Running started j v) :
    ∃ v', ((s.setState w.state state').setWorker i w').Running started j v' := by
  obtain ⟨v', hv, hcase⟩ := hs.serves hi hr.serves
  obtain ⟨h1, h2⟩ := hs.state_eq (i := i)
  refine ⟨v', hr.thread, hr.serving, h1.trans hr.started, h2.trans hr.stopRequested, hv, ?_⟩
  obtain ⟨-, rfl, rfl⟩ | rfl := hcase
  · have hstop := hr.stopRequested
    rw [DefaultInstanceExecutionBackend.state, ← hr.serves.state, ← hs.stopRequested] at hstop
    exact hs.inLoop hstop
  · exact hr.inLoop

theorem WorkStep.stopping (hs : s.WorkStep w state' w') (hi : s.workers[i]? = some w)
    {v : Worker α} (hr : s.Stopping k j v) :
    ∃ v', ((s.setState w.state state').setWorker i w').Stopping k j v' ∧
      (v.pc = .exited → v'.pc = .exited) := by
  obtain ⟨v', hv, hcase⟩ := hs.serves hi hr.serves
  refine ⟨v', ⟨hr.state, hr.thread, hr.serving, (hs.state_eq (i := i)).2.trans hr.stopRequested,
    hv⟩, fun he => ?_⟩
  obtain ⟨-, rfl, -⟩ | rfl := hcase
  · exact absurd he hs.live
  · exact he

theorem WorkStep.caller (hs : s.WorkStep w state' w') (hi : s.workers[i]? = some w) {c : Caller}
    (hc : s.CallerAt c) : ((s.setState w.state state').setWorker i w').CallerAt c := by
  refine hc.map (fun hr => ?_) (fun _ _ _ hr => hs.running hi hr) (fun _ _ _ hr => hs.stopping hi hr)
  obtain ⟨hr', he⟩ := hs.resting hi hr
  exact ⟨hr', by rw [he]⟩

theorem flatMap_set {β : Type*} {l : List β} {f : β → List α} {b b' : β} (hi : l[i]? = some b)
    (hf : f b' = f b) : (l.set i b').flatMap f = l.flatMap f := by
  have hlt := (List.getElem?_eq_some_iff.1 hi).1
  have hb := (List.getElem?_eq_some_iff.1 hi).2
  have hmap : (l.set i b').map f = l.map f := by
    have hself := @List.set_getElem_self _ (l.map f) i (by simpa using hlt)
    rwa [List.getElem_map, hb, ← hf, ← List.map_set] at hself
  rw [List.flatMap_def, List.flatMap_def, hmap]

theorem Inv.work (h : s.Inv) (hi : s.workers[i]? = some w) (hs : s.WorkStep w state' w') :
    ((s.setState w.state state').setWorker i w').Inv where
  fresh k hk := by
    have hle : w.state ≤ s.current := (h.worker i w hi).state_le
    have hk' : s.current < k := hk
    exact (Function.update_of_ne (by omega) _ _).trans (h.fresh k hk)
  old k hk := by
    show (Function.update s.states w.state state' k).stopRequested = true
    by_cases hkw : k = w.state
    · rw [hkw, Function.update_self, hs.stopRequested, ← hkw]
      exact h.old k hk
    · rw [Function.update_of_ne hkw]
      exact h.old k hk
  worker j v hj := by
    have hw := h.worker i w hi
    obtain ⟨rfl, rfl⟩ | ⟨hne, hj⟩ := get_set hj
    · have hst : ((s.setState w.state state').setWorker j v).states v.state = state' := by
        rw [hs.state]
        exact Function.update_self _ _ _
      refine ⟨hs.state ▸ hw.state_le, hs.order, fun hne => ?_, fun he => ?_, hs.exited, fun hr => ?_,
        fun hr => ?_⟩
      · rw [hst, hs.worker]
        exact ⟨(hw.live hs.live).1, hs.live' hne⟩
      · rw [hst]
        exact hs.leaving he
      · exact absurd (hw.stopped (hs.stopResult ▸ hr)) hs.live
      · rw [hs.state]
        exact hw.timedOut (hs.stopResult ▸ hr)
    · refine (h.worker j v hj).frame (Nat.le_refl _) fun hlive => ?_
      have hstate : v.state ≠ w.state := fun he => hne (h.unique hj hi hlive hs.live he)
      have he : ((s.setState w.state state').setWorker i w').states v.state = s.states v.state :=
        Function.update_of_ne hstate _ _
      rw [he]
      exact .refl _
  caller := hs.caller hi h.caller
  accepted := h.accepted.trans (flatMap_set hi hs.accepted).symm
  executing := h.executing

end

/-! ## Steps of the callers -/

/-- `t` differs from `s` in what no worker and no later call depends on. -/
structure Same (s t : DefaultInstanceExecutionBackend α) : Prop where
  states : t.states = s.states
  current : t.current = s.current
  thread : t.thread = s.thread
  workers : t.workers = s.workers
  serving : t.serving = s.serving

theorem Same.state (h : Same s t) : t.state = s.state := by
  rw [DefaultInstanceExecutionBackend.state, h.states, h.current]
  rfl

theorem Same.serves (h : Same s t) (hs : s.Serves i w) : t.Serves i w :=
  ⟨h.workers ▸ hs.get, h.workers ▸ hs.last, hs.state.trans h.current.symm,
    (congrArg State.worker h.state).trans hs.worker, hs.stopResult⟩

theorem Same.resting (h : Same s t) (hr : s.Resting) : t.Resting where
  thread := h.thread.trans hr.thread
  serving := h.serving.trans hr.serving
  started := by rw [h.state]; exact hr.started
  stopRequested := by rw [h.state]; exact hr.stopRequested
  tasks := by rw [h.state]; exact hr.tasks
  quiet i w hi hw := hr.quiet i w (h.workers ▸ hi) (hw.trans h.current)

theorem Same.running (h : Same s t) {started : Bool} (hr : s.Running started i w) :
    t.Running started i w where
  thread := h.thread.trans hr.thread
  serving := h.serving.trans hr.serving
  started := by rw [h.state]; exact hr.started
  stopRequested := by rw [h.state]; exact hr.stopRequested
  serves := h.serves hr.serves
  inLoop := hr.inLoop

theorem Same.stopping (h : Same s t) (hr : s.Stopping k i w) : t.Stopping k i w where
  state := hr.state.trans h.current.symm
  thread := h.thread.trans hr.thread
  serving := h.serving.trans hr.serving
  stopRequested := by rw [h.state]; exact hr.stopRequested
  serves := h.serves hr.serves

theorem Inv.same (h : s.Inv) (hs : Same s t) (hc : s.CallerAt t.caller)
    (ha : t.accepted = s.accepted) (he : ∀ call ∈ t.executing, call.1 ≤ s.current) : t.Inv where
  fresh k hk := by
    rw [hs.states]
    exact h.fresh k (hs.current ▸ hk)
  old k hk := by
    rw [hs.states]
    exact h.old k (hs.current ▸ hk)
  worker i w hi := by
    rw [hs.workers] at hi
    refine (h.worker i w hi).frame (Nat.le_of_eq hs.current.symm) fun _ => ?_
    rw [hs.states]
    exact .refl _
  caller := hc.map (fun hr => ⟨hs.resting hr, by rw [hs.state]⟩)
    (fun _ _ w hr => ⟨w, hs.running hr⟩) (fun _ _ w hr => ⟨w, hs.stopping hr, id⟩)
  accepted := by rw [ha, hs.workers, h.accepted]
  executing call hcall := by rw [hs.current]; exact he call hcall

theorem update_other (s : DefaultInstanceExecutionBackend α) (a : State α) :
    ∀ k, k ≠ s.current → Function.update s.states s.current a k = s.states k :=
  fun _ hk => Function.update_of_ne hk _ _

theorem update_self (s : DefaultInstanceExecutionBackend α) (a : State α) :
    Function.update s.states s.current a s.current = a := Function.update_self _ _ _

/-- A step that touches no `State` but `*m_state`. -/
theorem Inv.of_current (h : s.Inv) (hcur : t.current = s.current)
    (hst : ∀ k, k ≠ s.current → t.states k = s.states k)
    (hw : ∀ i w, t.workers[i]? = some w → t.WorkerOk i w) (hc : t.CallerAt t.caller)
    (ha : t.accepted = t.workers.flatMap (·.accepted)) (he : t.executing = s.executing) : t.Inv where
  fresh k hk := by
    rw [hcur] at hk
    rw [hst k (by omega)]
    exact h.fresh k hk
  old k hk := by
    rw [hcur] at hk
    rw [hst k (by omega)]
    exact h.old k hk
  worker := hw
  caller := hc
  accepted := ha
  executing call hcall := by
    rw [hcur]
    exact h.executing call (he ▸ hcall)

/-- A worker that does not use `*m_state`, or uses of it what is left. -/
theorem WorkerOk.of_current (h : s.WorkerOk i w) (hcur : t.current = s.current)
    (hst : ∀ k, k ≠ s.current → t.states k = s.states k)
    (hk : w.pc ≠ .exited → w.state = s.current → Keeps s.state t.state) : t.WorkerOk i w := by
  refine h.frame (Nat.le_of_eq hcur.symm) fun hne => ?_
  by_cases hw : w.state = s.current
  · have := hk hne hw
    rwa [DefaultInstanceExecutionBackend.state, DefaultInstanceExecutionBackend.state, hcur,
      ← hw] at this
  · rw [hst _ hw]
    exact .refl _

theorem Quiet.keeps (h : s.Quiet) (hi : s.workers[i]? = some w) {a b : State α}
    (hw : w.pc ≠ .exited) (hs : w.state = s.current) : Keeps a b :=
  absurd (h i w hi hs) hw

theorem get_modifyWorker {l : List (Worker α)} {f : Worker α → Worker α} {v : Worker α}
    (hj : (l.modify i f)[j]? = some v) :
    (j = i ∧ ∃ w, l[i]? = some w ∧ v = f w) ∨ j ≠ i ∧ l[j]? = some v := by
  rw [List.getElem?_modify] at hj
  obtain ⟨w, hw, hv⟩ := Option.map_eq_some_iff.1 hj
  by_cases hij : i = j
  · rw [if_pos hij] at hv
    exact .inl ⟨hij.symm, w, hij ▸ hw, hv.symm⟩
  · rw [if_neg hij] at hv
    exact .inr ⟨fun he => hij he.symm, hv ▸ hw⟩

theorem get_append {l : List (Worker α)} {v : Worker α} (hj : (l ++ [w])[j]? = some v) :
    l[j]? = some v ∨ j = l.length ∧ v = w := by
  obtain hlt | hle := Nat.lt_or_ge j l.length
  · exact .inl (by rwa [List.getElem?_append_left hlt] at hj)
  · rw [List.getElem?_append_right hle, List.getElem?_singleton] at hj
    split at hj
    · exact .inr ⟨by omega, (Option.some.inj hj).symm⟩
    · cases hj

theorem flatMap_modify {l : List (Worker α)} {f : Worker α → Worker α}
    (hf : ∀ w, (f w).accepted = w.accepted) :
    (l.modify i f).flatMap (·.accepted) = l.flatMap (·.accepted) := by
  induction l generalizing i with
  | nil => simp
  | cons w l ih =>
    cases i with
    | zero => simp [hf]
    | succ i => simp [ih]

theorem flatMap_modify_last {l : List (Worker α)} (hl : i + 1 = l.length) (task : α) :
    (l.modify i fun w => { w with accepted := w.accepted ++ [task] }).flatMap (·.accepted) =
      l.flatMap (·.accepted) ++ [task] := by
  induction l generalizing i with
  | nil => simp at hl
  | cons w l ih =>
    cases i with
    | zero =>
      have hnil : l = [] := by simpa using hl
      simp [hnil]
    | succ i =>
      rw [List.modify_succ_cons, List.flatMap_cons, ih (by simpa using hl), List.flatMap_cons,
        List.append_assoc]

/-- An `execute` that is accepted. -/
theorem Inv.pushed (h : s.Inv) (hr : s.Running true i w) (hcaller : s.caller = .idle) (task : α) :
    ({ s with accepted := s.accepted ++ [task] }
      |>.setState s.current { s.state with tasks := s.state.tasks ++ [task] }
      |>.modifyWorker s.state.worker fun w => { w with accepted := w.accepted ++ [task] }).Inv := by
  obtain rfl : s.state.worker = i := hr.serves.worker
  have hserves := hr.serves
  have hother := s.update_other { s.state with tasks := s.state.tasks ++ [task] }
  have hself := s.update_self { s.state with tasks := s.state.tasks ++ [task] }
  refine h.of_current rfl hother ?_ ?_ ?_ rfl
  · intro j v hj
    obtain ⟨hji, v, hv, rfl⟩ | ⟨hne, hj⟩ := get_modifyWorker hj
    · subst hji
      obtain rfl : v = w := Option.some.inj (hv.symm.trans hserves.get)
      have hw := h.worker _ v hv
      obtain ⟨hwk, hx, hacc⟩ := hw.live hr.inLoop.2
      rw [hserves.state] at hwk hx hacc
      refine ⟨hw.state_le, hw.order, fun _ => ?_, fun he => absurd he hr.inLoop.1,
        fun he => absurd he hr.inLoop.2, hw.stopped, hw.timedOut⟩
      show (Function.update s.states s.current _ v.state).worker = s.state.worker ∧
        (Function.update s.states s.current _ v.state).workerExited = false ∧
          v.accepted ++ [task] = v.begun ++ (Function.update s.states s.current _ v.state).tasks
      rw [hserves.state, hself, hacc]
      exact ⟨hwk, hx, List.append_assoc _ _ _⟩
    · refine (h.worker j v hj).of_current rfl hother fun hlive hstate => ?_
      exact absurd (h.unique hj hserves.get hlive hr.inLoop.2 (hstate.trans hserves.state.symm)) hne
  · show CallerAt _ s.caller
    rw [hcaller]
    refine .inr ⟨s.state.worker, { w with accepted := w.accepted ++ [task] }, hr.thread, hr.serving, ?_, ?_, ?_,
      hr.inLoop⟩
    · exact (congrArg State.started hself).trans hr.started
    · exact (congrArg State.stopRequested hself).trans hr.stopRequested
    · refine ⟨?_, ?_, hserves.state, (congrArg State.worker hself).trans hserves.worker,
        hserves.stopResult⟩
      · show (s.workers.modify s.state.worker _)[s.state.worker]? = _
        rw [List.getElem?_modify_eq, hserves.get]
        rfl
      · exact hserves.last.trans (List.length_modify _ _ _).symm
  · show s.accepted ++ [task] = (s.workers.modify s.state.worker _).flatMap _
    rw [flatMap_modify_last hserves.last, h.accepted]

theorem Inv.push (h : s.Inv) (hk : k ≤ s.current) (task : α) : (s.push k task).Inv := by
  obtain ⟨error, he⟩ | ⟨hcaller, i, w, hr, he⟩ := push_cases h hk task
  · rw [he]
    exact h.same ⟨rfl, rfl, rfl, rfl, rfl⟩ h.caller rfl h.executing
  · rw [he]
    exact h.pushed hr hcaller task

/-! ## Steps of the lifecycle caller -/

theorem Inv.start (h : s.Inv) (hc : s.caller = .idle) : s.start.Inv := by
  have hidle := h.caller
  rw [hc] at hidle
  unfold DefaultInstanceExecutionBackend.start
  obtain hr | ⟨i, w, hr⟩ := hidle
  · rw [if_neg (by rw [hr.thread]; nofun), if_neg (by rw [hr.started]; nofun)]
    have hother := s.update_other { s.state with stopRequested := false, workerExited := false }
    have hself := s.update_self { s.state with stopRequested := false, workerExited := false }
    refine h.of_current rfl hother (fun j v hj => ?_) ⟨⟨hr.thread, hr.serving, ?_, ?_, ?_, ?_⟩, ?_⟩
      h.accepted rfl
    · exact (h.worker j v hj).of_current rfl hother fun hne hs => hr.quiet.keeps hj hne hs
    · exact (congrArg State.started hself).trans hr.started
    · exact congrArg State.stopRequested hself
    · exact (congrArg State.tasks hself).trans hr.tasks
    · exact hr.quiet
    · exact congrArg State.workerExited hself
  · rw [if_pos (by rw [hr.thread]; rfl)]
    refine h.same ⟨rfl, rfl, rfl, rfl, rfl⟩ ?_ rfl h.executing
    exact h.caller

theorem Inv.createThread (h : s.Inv) (hc : s.caller = .startThread) (failure : Option Bytes) :
    (s.createThread failure).Inv := by
  have hcaller := h.caller
  rw [hc] at hcaller
  obtain ⟨hr, hx⟩ := hcaller
  cases failure with
  | some what =>
    have hother := s.update_other { s.state with workerExited := true }
    have hself := s.update_self { s.state with workerExited := true }
    refine h.of_current rfl hother (fun j v hj => ?_) (.inl ⟨hr.thread, hr.serving, ?_, ?_, ?_, ?_⟩)
      h.accepted rfl
    · exact (h.worker j v hj).of_current rfl hother fun hne hs => hr.quiet.keeps hj hne hs
    · exact (congrArg State.started hself).trans hr.started
    · exact (congrArg State.stopRequested hself).trans hr.stopRequested
    · exact (congrArg State.tasks hself).trans hr.tasks
    · exact hr.quiet
  | none =>
    have hother := s.update_other { s.state with worker := s.workers.length }
    have hself := s.update_self { s.state with worker := s.workers.length }
    refine h.of_current rfl hother (fun j v hj => ?_) ?_ ?_ rfl
    · obtain hj | ⟨rfl, rfl⟩ := get_append hj
      · exact (h.worker j v hj).of_current rfl hother fun hne hs => hr.quiet.keeps hj hne hs
      · refine ⟨Nat.le_refl _, rfl, fun _ => ?_, nofun, nofun, nofun, nofun⟩
        show (Function.update s.states s.current _ s.current).worker = _ ∧
          (Function.update s.states s.current _ s.current).workerExited = false ∧
            [] = [] ++ (Function.update s.states s.current _ s.current).tasks
        rw [hself]
        exact ⟨rfl, hx, hr.tasks.symm⟩
    · refine ⟨s.workers.length, { state := s.current }, rfl, hr.serving, ?_, ?_, ?_, nofun, nofun⟩
      · exact (congrArg State.started hself).trans hr.started
      · exact (congrArg State.stopRequested hself).trans hr.stopRequested
      · refine ⟨?_, ?_, rfl, congrArg State.worker hself, rfl⟩
        · exact List.getElem?_concat_length
        · show s.workers.length + 1 = (s.workers ++ [_]).length
          rw [List.length_append, List.length_singleton]
    · show s.accepted = (s.workers ++ [_]).flatMap _
      rw [List.flatMap_append, h.accepted]
      exact (List.append_nil _).symm

theorem Inv.setStarted (h : s.Inv) (hc : s.caller = .startFlag) : s.setStarted.Inv := by
  have hcaller := h.caller
  rw [hc] at hcaller
  obtain ⟨i, w, hr⟩ := hcaller
  have hother := s.update_other { s.state with started := true }
  have hself := s.update_self { s.state with started := true }
  refine h.of_current rfl hother (fun j v hj => ?_)
    (.inr ⟨i, w, hr.thread, rfl, ?_, ?_, ⟨hr.serves.get, hr.serves.last, hr.serves.state, ?_,
      hr.serves.stopResult⟩, hr.inLoop⟩) h.accepted rfl
  · refine (h.worker j v hj).of_current rfl hother fun _ _ => ?_
    show Keeps _ (Function.update s.states s.current _ s.current)
    rw [hself]
    exact ⟨rfl, rfl, rfl, id⟩
  · exact congrArg State.started hself
  · exact (congrArg State.stopRequested hself).trans hr.stopRequested
  · exact (congrArg State.worker hself).trans hr.serves.worker

theorem Inv.stop (h : s.Inv) (hc : s.caller = .idle) : s.stop.Inv := by
  have hidle := h.caller
  rw [hc] at hidle
  unfold DefaultInstanceExecutionBackend.stop
  obtain hr | ⟨i, w, hr⟩ := hidle
  · rw [if_pos (by rw [hr.started, hr.thread]; rfl)]
    exact h.same ⟨rfl, rfl, rfl, rfl, rfl⟩ h.caller rfl h.executing
  · rw [if_neg (by rw [hr.started]; nofun)]
    simp only [hr.thread]
    have hother := s.update_other { s.state with stopRequested := true }
    have hself := s.update_self { s.state with stopRequested := true }
    refine h.of_current rfl hother (fun j v hj => ?_)
      ⟨w, rfl, rfl, rfl, ?_, ⟨hr.serves.get, hr.serves.last, hr.serves.state, ?_,
        hr.serves.stopResult⟩⟩ h.accepted rfl
    · refine (h.worker j v hj).of_current rfl hother fun _ _ => ?_
      show Keeps _ (Function.update s.states s.current _ s.current)
      rw [hself]
      exact ⟨rfl, rfl, rfl, fun _ => rfl⟩
    · exact congrArg State.stopRequested hself
    · exact (congrArg State.worker hself).trans hr.serves.worker

/-- The `stop` that ends a cycle in time. -/
theorem Inv.clear (h : s.Inv) {thread : Option Nat} (hc : s.caller = .stopClear k thread) :
    (s.clear k thread).Inv := by
  have hcaller := h.caller
  rw [hc] at hcaller
  cases thread with
  | none => exact hcaller.elim
  | some i =>
    obtain ⟨w, hr, he⟩ := hcaller
    obtain rfl := hr.state
    have hquiet := h.quiet hr.serves he
    have hother := s.update_other { s.state with started := false, stopRequested := false, tasks := [] }
    have hself := s.update_self { s.state with started := false, stopRequested := false, tasks := [] }
    refine h.of_current rfl hother (fun j v hj => ?_)
      (.inl ⟨hr.thread, hr.serving, ?_, ?_, ?_, fun j v hj hv => ?_⟩) ?_ rfl
    · obtain ⟨rfl, v, hv, rfl⟩ | ⟨hne, hj⟩ := get_modifyWorker hj
      · obtain rfl : v = w := Option.some.inj (hv.symm.trans hr.serves.get)
        have hw := h.worker j v hv
        have hl : v.pc ≠ .leaving := by rw [he]; nofun
        exact ⟨hw.state_le, hw.order, fun hne => absurd he hne, fun h => absurd h hl, hw.exited,
          fun _ => he, nofun⟩
      · exact (h.worker j v hj).of_current rfl hother fun hne hs => hquiet.keeps hj hne hs
    · exact congrArg State.started hself
    · exact congrArg State.stopRequested hself
    · exact congrArg State.tasks hself
    · obtain ⟨rfl, v, hv', rfl⟩ | ⟨-, hv'⟩ := get_modifyWorker hj
      · exact hquiet j v hv' hv
      · exact hquiet j v hv' hv
    · show s.accepted = (s.workers.modify i _).flatMap _
      rw [flatMap_modify, h.accepted]
      exact fun _ => rfl

/-- The `stop` that timed out. -/
theorem Inv.replace (h : s.Inv) (hc : s.caller = .stopReplace k i) : (s.replace k i).Inv := by
  have hcaller := h.caller
  rw [hc] at hcaller
  obtain ⟨w, hr⟩ := hcaller
  obtain rfl := hr.state
  have hcur : (s.replace s.current i).current = s.current + 1 := if_pos rfl
  have hfresh : (s.replace s.current i).state = {} := by
    show s.states _ = {}
    rw [hcur]
    exact h.fresh _ (Nat.lt_succ_self _)
  refine ⟨fun k hk => ?_, fun k hk => ?_, fun j v hj => ?_, .inl ⟨hr.thread, hr.serving, ?_, ?_, ?_,
    fun j v hj hv => ?_⟩, ?_, fun call hcall => ?_⟩
  · rw [hcur] at hk
    exact h.fresh k (by omega)
  · rw [hcur] at hk
    obtain hk | rfl := Nat.lt_succ_iff_lt_or_eq.1 hk
    · exact h.old k hk
    · exact hr.stopRequested
  · obtain ⟨rfl, v, hv, rfl⟩ | ⟨hne, hj⟩ := get_modifyWorker hj
    · obtain rfl : v = w := Option.some.inj (hv.symm.trans hr.serves.get)
      have hw := h.worker j v hv
      refine ⟨?_, hw.order, hw.live, hw.leaving, hw.exited, nofun, fun _ => ?_⟩
      · rw [hcur]
        exact Nat.le_succ_of_le hw.state_le
      · rw [hcur]
        exact Nat.lt_succ_of_le hw.state_le
    · exact (h.worker j v hj).frame (by rw [hcur]; exact Nat.le_succ _) fun _ => .refl _
  · rw [hfresh]
  · rw [hfresh]
  · rw [hfresh]
  · have hle : v.state ≤ s.current := by
      obtain ⟨rfl, v, hv', rfl⟩ | ⟨-, hv'⟩ := get_modifyWorker hj
      · exact (h.worker j v hv').state_le
      · exact (h.worker j v hv').state_le
    rw [hcur] at hv
    omega
  · show s.accepted = (s.workers.modify i _).flatMap _
    rw [flatMap_modify, h.accepted]
    exact fun _ => rfl
  · rw [hcur]
    exact Nat.le_succ_of_le (h.executing call hcall)

/-! ## Runs -/

/-- The flag of a worker that has exited is seen. -/
theorem Stopping.exited {k : Nat} (hr : s.Stopping k i w) (h : s.Inv)
    (hx : (s.states k).workerExited = true) : w.pc = .exited := by
  by_contra hne
  have hlive := ((h.worker i w hr.serves.get).live hne).2.1
  rw [hr.serves.state, ← hr.state, hx] at hlive
  cases hlive

theorem Inv.unlock (h : s.Inv) (k : Nat) : Inv { s with executing := s.executing.eraseIdx k } :=
  h.same ⟨rfl, rfl, rfl, rfl, rfl⟩ h.caller rfl fun call hc =>
    h.executing call (List.mem_of_mem_eraseIdx hc)

theorem step_inv (h : s.Inv) {a : Act α} (ht : s.step a = some t) : t.Inv := by
  have hcaller := h.caller
  cases step_cases ht with
  | empty => exact h.same ⟨rfl, rfl, rfl, rfl, rfl⟩ hcaller rfl h.executing
  | execute task =>
    refine h.same ⟨rfl, rfl, rfl, rfl, rfl⟩ hcaller rfl fun call hcall => ?_
    obtain hcall | hcall := List.mem_append.1 hcall
    · exact h.executing call hcall
    · exact Nat.le_of_eq (congrArg Prod.fst (List.mem_singleton.1 hcall))
  | @lock k call hcall =>
    exact (h.unlock k).push (h.executing call (List.mem_of_getElem? hcall)) call.2
  | start hc => exact h.start hc
  | createThread failure hc => exact h.createThread hc failure
  | setStarted hc => exact h.setStarted hc
  | stop hc => exact h.stop hc
  | exited hc hx =>
    rw [hc] at hcaller
    obtain ⟨w, hr⟩ := hcaller
    exact h.same ⟨rfl, rfl, rfl, rfl, rfl⟩ ⟨w, hr, hr.exited h hx⟩ rfl h.executing
  | timedOut hc =>
    rw [hc] at hcaller
    exact h.same ⟨rfl, rfl, rfl, rfl, rfl⟩ hcaller rfl h.executing
  | join hc =>
    rw [hc] at hcaller
    exact h.same ⟨rfl, rfl, rfl, rfl, rfl⟩ hcaller rfl h.executing
  | clear hc => exact h.clear hc
  | replace hc => exact h.replace hc
  | work hi hw =>
    obtain ⟨state', w', hs, rfl⟩ := work_step (h.worker _ _ hi) hw
    exact h.work hi hs

theorem run_inv {as : List (Act α)} (h : (machine α).run {} as = some s) : s.Inv :=
  Lts.Machine.run_inv (M := machine α) (fun _ _ _ h ht => step_inv h ht) .new h

/-! ## An abandoned worker -/

def Act.isWork (i : Nat) : Act α → Bool
  | .work j => j == i
  | _ => false

/-- Nothing but its own steps changes an abandoned worker. -/
theorem step_abandoned (h : s.Inv) (hi : s.workers[i]? = some w) (hr : w.stopResult = some false)
    {a : Act α} (ht : s.step a = some t) :
    ∃ w', t.workers[i]? = some w' ∧ w'.stopResult = some false ∧ w'.accepted = w.accepted ∧
      w'.todo + (if a.isWork i then 1 else 0) = w.todo := by
  -- the cycle of `*m_state` is another one
  have hother : ∀ {j v} (f : Worker α → Worker α), s.Serves j v →
      (s.workers.modify j f)[i]? = some w := by
    intro j v f hv
    have hne : j ≠ i := by
      rintro rfl
      rw [hv.get] at hi
      rw [← Option.some.inj hi, hv.stopResult] at hr
      cases hr
    rw [List.getElem?_modify, hi]
    exact congrArg some (if_neg hne)
  have hcaller := h.caller
  cases step_cases ht with
  | empty => exact ⟨w, hi, hr, rfl, rfl⟩
  | execute task => exact ⟨w, hi, hr, rfl, rfl⟩
  | @lock k call hcall =>
    refine ⟨w, ?_, hr, rfl, rfl⟩
    have hle := h.executing call (List.mem_of_getElem? hcall)
    obtain ⟨error, he⟩ | ⟨-, j, v, hv, he⟩ := push_cases (h.unlock k) hle call.2
    · rw [he]
      exact hi
    · have hserves : s.Serves s.state.worker v := by
        have hj : s.state.worker = j := hv.serves.worker
        rw [hj]
        exact ⟨hv.serves.get, hv.serves.last, hv.serves.state, hj, hv.serves.stopResult⟩
      rw [he]
      exact hother _ hserves
  | start hc =>
    refine ⟨w, ?_, hr, rfl, rfl⟩
    unfold start
    split_ifs
    · exact hi
    · exact hi
    · exact hi
  | createThread failure hc =>
    refine ⟨w, ?_, hr, rfl, rfl⟩
    cases failure with
    | none => exact (List.getElem?_append_left (List.getElem?_eq_some_iff.1 hi).1).trans hi
    | some what => exact hi
  | setStarted hc => exact ⟨w, hi, hr, rfl, rfl⟩
  | stop hc =>
    refine ⟨w, ?_, hr, rfl, rfl⟩
    unfold stop
    split_ifs
    · exact hi
    · exact hi
  | exited hc hx => exact ⟨w, hi, hr, rfl, rfl⟩
  | timedOut hc => exact ⟨w, hi, hr, rfl, rfl⟩
  | join hc => exact ⟨w, hi, hr, rfl, rfl⟩
  | @clear k thread hc =>
    rw [hc] at hcaller
    cases thread with
    | none => exact hcaller.elim
    | some j =>
      obtain ⟨v, hv, -⟩ := hcaller
      exact ⟨w, hother _ hv.serves, hr, rfl, rfl⟩
  | replace hc =>
    rw [hc] at hcaller
    obtain ⟨v, hv⟩ := hcaller
    exact ⟨w, hother _ hv.serves, hr, rfl, rfl⟩
  | @work j v _ hj hv =>
    obtain ⟨state', v', hs, rfl⟩ := work_step (h.worker j v hj) hv
    by_cases hij : j = i
    · subst hij
      obtain rfl : v = w := Option.some.inj (hj.symm.trans hi)
      refine ⟨v', List.getElem?_set_self (List.getElem?_eq_some_iff.1 hj).1,
        hs.stopResult.trans hr, hs.accepted, ?_⟩
      rw [if_pos (by simp [Act.isWork])]
      exact hs.todo
    · refine ⟨w, (List.getElem?_set_ne hij).trans hi, hr, rfl, ?_⟩
      rw [if_neg (by simp [Act.isWork, hij])]
      rfl

theorem run_abandoned {bs : List (Act α)} {u : DefaultInstanceExecutionBackend α} (h : s.Inv)
    (hi : s.workers[i]? = some w) (hr : w.stopResult = some false)
    (hu : (machine α).run s bs = some u) :
    u.Inv ∧ ∃ w', u.workers[i]? = some w' ∧ w'.stopResult = some false ∧ w'.accepted = w.accepted ∧
      w'.todo + bs.countP (Act.isWork i) = w.todo := by
  induction bs generalizing s w with
  | nil =>
    cases hu
    exact ⟨h, w, hi, hr, rfl, rfl⟩
  | cons b bs ih =>
    obtain ⟨t, ht, hu⟩ := Lts.Machine.run_cons_some hu
    obtain ⟨v, hv, hvr, hva, hvt⟩ := step_abandoned h hi hr ht
    obtain ⟨hinv, w', hw', hr', ha', ht'⟩ := ih (step_inv h ht) hv hvr hu
    refine ⟨hinv, w', hw', hr', ha'.trans hva, ?_⟩
    rw [List.countP_cons, ← hvt, ← ht']
    omega

/-- It never waits. -/
theorem work_isSome (h : s.Inv) (hi : s.workers[i]? = some w) (hr : w.stopResult = some false)
    (he : w.pc ≠ .exited) : (s.step (.work i)).isSome = true := by
  have hstop := h.old w.state ((h.worker i w hi).timedOut hr)
  show (s.workers[i]?.bind (s.work i)).isSome = true
  rw [hi, Option.bind_some, work]
  cases hpc : w.pc with
  | loop =>
    cases htasks : (s.states w.state).tasks with
    | nil => simp [hstop]
    | cons task tasks => rfl
  | running task => rfl
  | leaving => rfl
  | exited => exact absurd hpc he

theorem WorkerOk.done (h : s.WorkerOk i w) (he : w.pc = .exited) : w.ended = w.accepted := by
  rw [h.exited he, h.order, he]
  exact (List.append_nil _).symm

theorem WorkerOk.begun_prefix (h : s.WorkerOk i w) : w.begun <+: w.accepted := by
  by_cases he : w.pc = .exited
  · exact ⟨[], by rw [List.append_nil, h.exited he]⟩
  · rw [(h.live he).2.2]
    exact List.prefix_append _ _

theorem exited_of_todo (h : w.todo = 0) : w.pc = .exited := by
  unfold Worker.todo at h
  cases hpc : w.pc with
  | exited => rfl
  | loop => rw [hpc] at h; simp at h
  | running task => rw [hpc] at h; simp at h
  | leaving => rw [hpc] at h; simp at h

/-! ## The cycles of a run -/

/-- In the worker's cycle the accepted tasks are run in order, each at most once and never two at the
same time. -/
structure InOrder (w : Worker α) : Prop where
  begun : w.begun <+: w.accepted
  ended : w.begun = w.ended ++ w.pc.task

/-- Whatever happens from `s` on, the worker numbered `i` accepts nothing more, always has a next
step, and after `w.todo` of them it has exited and everything has been run. -/
def Completes (s : DefaultInstanceExecutionBackend α) (i : Nat) (w : Worker α) : Prop :=
  ∀ (bs : List (Act α)) u, (machine α).run s bs = some u →
    ∃ w', u.workers[i]? = some w' ∧ w'.accepted = w.accepted ∧ InOrder w' ∧
      (w'.pc ≠ .exited → (u.step (.work i)).isSome = true) ∧
      (w.todo ≤ bs.countP (Act.isWork i) → w'.pc = .exited ∧ w'.ended = w.accepted)

theorem worker_completes (h : s.Inv) (hi : s.workers[i]? = some w)
    (hr : w.stopResult = some false) : s.Completes i w := by
  intro bs u hu
  obtain ⟨hinv, w', hw', hr', ha, htodo⟩ := run_abandoned h hi hr hu
  have hok := hinv.worker i w' hw'
  refine ⟨w', hw', ha, ⟨hok.begun_prefix, hok.order⟩, work_isSome hinv hw' hr', fun hle => ?_⟩
  have he := exited_of_todo (w := w') (by omega)
  exact ⟨he, (hok.done he).trans ha⟩

/-- Only an `execute` of a running cycle is accepted. -/
theorem accepts_serving (h : s.Inv) {a : Act α} (ht : s.step a = some t)
    (ha : t.accepted ≠ s.accepted) : s.serving = true := by
  cases step_cases ht with
  | empty => exact absurd rfl ha
  | execute task => exact absurd rfl ha
  | @lock k call hcall =>
    have hle := h.executing call (List.mem_of_getElem? hcall)
    obtain ⟨error, he⟩ | ⟨-, j, v, hv, -⟩ := push_cases (h.unlock k) hle call.2
    · rw [he] at ha
      exact absurd rfl ha
    · exact hv.serving
  | start hc =>
    refine absurd ?_ ha
    unfold start
    split_ifs <;> rfl
  | createThread failure hc => cases failure <;> exact absurd rfl ha
  | setStarted hc => exact absurd rfl ha
  | stop hc =>
    refine absurd ?_ ha
    unfold stop
    split_ifs <;> rfl
  | exited hc hx => exact absurd rfl ha
  | timedOut hc => exact absurd rfl ha
  | join hc => exact absurd rfl ha
  | @clear k thread hc => cases thread <;> exact absurd rfl ha
  | replace hc => exact absurd rfl ha
  | work hi hw =>
    obtain ⟨state', w', -, rfl⟩ := work_step (h.worker _ _ hi) hw
    exact absurd rfl ha

/-- **Every accepted task is run once, in order.** In every run, with any number of start cycles and
timeouts: an accepted task belongs to one cycle, whose worker runs the tasks in order; a `stop` that
returned true found the worker gone and everything run; a worker whose `stop` timed out runs
everything its own cycle accepted and nothing else; and nothing is accepted between a `stop` and the
next successful `start`. -/
theorem run_backend {as : List (Act α)} (h : (machine α).run {} as = some s) :
    s.accepted = s.workers.flatMap (·.accepted) ∧
      (∀ i w, s.workers[i]? = some w → InOrder w ∧
        (w.stopResult = some true → w.pc = .exited ∧ w.ended = w.accepted) ∧
        (w.stopResult = some false → s.Completes i w)) ∧
      ∀ (a : Act α) t, s.step a = some t → t.accepted ≠ s.accepted → s.serving = true := by
  have hinv := run_inv h
  refine ⟨hinv.accepted, fun i w hi => ?_, fun a t ht ha => accepts_serving hinv ht ha⟩
  have hok := hinv.worker i w hi
  refine ⟨⟨hok.begun_prefix, hok.order⟩, fun hr => ?_, worker_completes hinv hi⟩
  exact ⟨hok.stopped hr, hok.done (hok.stopped hr)⟩

/-- A `stop` that times out before the task of its cycle has begun, and a second cycle beside the
abandoned worker. -/
theorem run_backend_timeout :
    let as : List (Act Nat) :=
      [.start, .createThread none, .setStarted, .execute (some 1), .lock 0, .stop, .waited, .replace,
        .start, .createThread none, .setStarted, .execute (some 2), .lock 0, .work 0, .work 1,
        .execute (some 3), .stop, .lock 0, .work 1, .work 1, .work 1, .waited, .join, .clear]
    ∃ s, (machine Nat).run {} as = some s ∧ s.accepted = s.workers.flatMap (·.accepted) ∧
      (∀ i w, s.workers[i]? = some w → InOrder w ∧
        (w.stopResult = some true → w.pc = .exited ∧ w.ended = w.accepted) ∧
        (w.stopResult = some false → s.Completes i w)) ∧
      ∀ (a : Act Nat) t, s.step a = some t → t.accepted ≠ s.accepted → s.serving = true := by
  intro as
  have hrun : ((machine Nat).run {} as).map (·.workers.map (·.stopResult)) =
      some [some false, some true] := rfl
  obtain ⟨s, hs, -⟩ := Option.map_eq_some_iff.1 hrun
  exact ⟨s, hs, run_backend hs⟩

end Phi.Host.DefaultInstanceExecutionBackend
