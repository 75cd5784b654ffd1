import PhiSidecar.Host.Drain
import PhiSidecar.Host.ThreadHandles

/-!
# What a backend owes to the holders of its threads

`Marked` is what the registry relies on: a worker whose `stop` has given up, or is about to, has left its
mark in its `State` when it has come to its end (`Abandoned.hasExited`). `step_handles` sorts the steps by
what they do with thread handles, and `Halting.thread` says that a `stop` leaves none behind.
-/

set_option autoImplicit false

namespace Phi.Host

universe u

namespace DefaultInstanceExecutionBackend

variable {α : Type u} {s t : DefaultInstanceExecutionBackend α} {i k : Nat} {w w' : Worker α} {a : Act α}

/-! ## The mark of a worker -/

@[simp] theorem Worker.returned_iff : w.returned = true ↔ w.pc = .exited := by
  unfold Worker.returned
  cases w.pc <;> simp

/-- The `stop` waits for the worker numbered `i`, or has just given up. -/
def Caller.GivesUp (i : Nat) : Caller → Prop
  | .stopWait _ j | .stopReplace _ j => j = i
  | .idle | .startThread | .startFlag | .stopJoin _ _ | .stopClear _ _ => False

def Marked (s : DefaultInstanceExecutionBackend α) : Prop :=
  ∀ (i : Nat) w, s.workers[i]? = some w → w.pc = .exited →
    w.stopResult = some false ∨ s.caller.GivesUp i → s.hasExited w.state = true

theorem Marked.new : ({} : DefaultInstanceExecutionBackend α).Marked := fun i w h => by simp at h

/-- A step of a worker wipes no mark, and leaves one at the worker's end. -/
theorem work_marks (h : s.work i w = some t) :
    (∀ k, s.hasExited k = true → t.hasExited k = true) ∧
      ∀ v, t.workers[i]? = some v → v.pc = .exited → t.hasExited v.state = true := by
  have hkeep (a : State α) (ha : a.workerExited = (s.states w.state).workerExited ∨ a.workerExited = true)
      (k : Nat) (hk : s.hasExited k = true) : (Function.update s.states w.state a k).workerExited = true := by
    by_cases hkw : k = w.state
    · subst hkw
      rw [Function.update_self]
      exact ha.elim (·.trans hk) id
    · rw [Function.update_of_ne hkw]
      exact hk
  have hset {l : List (Worker α)} {v v' : Worker α} (hv : (l.set i v')[i]? = some v) : v = v' := by
    rw [List.getElem?_set, if_pos rfl] at hv
    split at hv
    · exact (Option.some.inj hv).symm
    · cases hv
  unfold work at h
  simp only at h
  split at h
  · split at h
    · split at h
      · cases h
        refine ⟨fun k hk => hk, fun v hv he => ?_⟩
        rw [hset hv] at he
        cases he
      · cases h
    · cases h
      refine ⟨hkeep _ (.inl rfl), fun v hv he => ?_⟩
      rw [hset hv] at he
      cases he
  · cases h
    refine ⟨fun k hk => hk, fun v hv he => ?_⟩
    rw [hset hv] at he
    cases he
  · cases h
    refine ⟨hkeep _ (.inr rfl), fun v hv he => ?_⟩
    rw [hset hv]
    exact congrArg State.workerExited (Function.update_self w.state _ s.states)
  · cases h

/-- What an `execute` does not change of a worker. -/
def Worker.place (w : Worker α) : Nat × Pc α × Option Bool := (w.state, w.pc, w.stopResult)

theorem map_place_modify {l : List (Worker α)} {f : Worker α → Worker α} (hf : ∀ w, (f w).place = w.place) :
    (l.modify i f).map Worker.place = l.map Worker.place := by
  apply List.ext_getElem?
  intro j
  rw [List.getElem?_map, List.getElem?_map, List.getElem?_modify]
  cases l[j]? with
  | none => rfl
  | some w =>
    apply congrArg some
    by_cases hj : i = j
    · simp [hj, hf]
    · simp [hj]

theorem push_frame (s : DefaultInstanceExecutionBackend α) (k : Nat) (task : α) :
    (s.push k task).thread = s.thread ∧ (s.push k task).caller = s.caller ∧
      (s.push k task).serving = s.serving ∧ (∀ j, (s.push k task).hasExited j = s.hasExited j) ∧
      (s.push k task).workers.map Worker.place = s.workers.map Worker.place := by
  unfold push
  simp only
  split
  · exact ⟨rfl, rfl, rfl, fun _ => rfl, rfl⟩
  · split
    · exact ⟨rfl, rfl, rfl, fun _ => rfl, rfl⟩
    · refine ⟨rfl, rfl, rfl, fun j => ?_, map_place_modify fun _ => rfl⟩
      show (Function.update s.states k _ j).workerExited = _
      by_cases hj : j = k
      · subst hj
        rw [Function.update_self]
        rfl
      · rw [Function.update_of_ne hj]
        rfl

theorem hasExited_setState {a : State α} (ha : a.workerExited = (s.states k).workerExited) (j : Nat) :
    (s.setState k a).hasExited j = s.hasExited j := by
  show (Function.update s.states k a j).workerExited = _
  by_cases hj : j = k
  · subst hj
    rw [Function.update_self, ha]
    rfl
  · rw [Function.update_of_ne hj]
    rfl

theorem hasExited_setState_of_ne {j : Nat} (hj : j ≠ k) (a : State α) :
    (s.setState k a).hasExited j = s.hasExited j :=
  congrArg State.workerExited (Function.update_of_ne hj _ _)

theorem Marked.start (h : s.Marked) (hinv : s.Inv) : s.start.Marked := by
  intro j v hj he hor
  unfold DefaultInstanceExecutionBackend.start at hj hor ⊢
  split_ifs at hj hor ⊢
  · exact h j v hj he hor
  · exact h j v hj he hor
  · have hr : v.stopResult = some false := hor.resolve_right id
    have hne : v.state ≠ s.current := Nat.ne_of_lt ((hinv.worker j v hj).timedOut hr)
    exact (hasExited_setState_of_ne hne _).trans (h j v hj he (.inl hr))

theorem Marked.createThread (h : s.Marked) (hinv : s.Inv) (failure : Option Bytes) :
    (s.createThread failure).Marked := by
  intro j v hj he hor
  cases failure with
  | none =>
    have hr : v.stopResult = some false := hor.resolve_right id
    obtain hj | ⟨-, rfl⟩ := get_append hj
    · have hne : v.state ≠ s.current := Nat.ne_of_lt ((hinv.worker j v hj).timedOut hr)
      exact (hasExited_setState_of_ne hne _).trans (h j v hj he (.inl hr))
    · cases he
  | some what =>
    have hr : v.stopResult = some false := hor.resolve_right id
    have hne : v.state ≠ s.current := Nat.ne_of_lt ((hinv.worker j v hj).timedOut hr)
    exact (hasExited_setState_of_ne hne _).trans (h j v hj he (.inl hr))

theorem Marked.stop (h : s.Marked) (hinv : s.Inv) (hc : s.caller = .idle) : s.stop.Marked := by
  intro j v hj he hor
  have hidle := hinv.caller
  rw [hc] at hidle
  unfold DefaultInstanceExecutionBackend.stop at hj hor ⊢
  obtain hr | ⟨i, w, hr⟩ := hidle
  · rw [if_pos (by rw [hr.started, hr.thread]; rfl)] at hj hor ⊢
    exact h j v hj he hor
  · rw [if_neg (by rw [hr.started]; nofun)] at hj hor ⊢
    simp only [hr.thread] at hj hor ⊢
    have hflag := hasExited_setState (s := s) (k := s.current)
      (a := { s.state with stopRequested := true }) rfl v.state
    obtain hor | rfl := hor
    · exact hflag.trans (h j v hj he (.inl hor))
    · -- the worker of the cycle is in its loop
      obtain rfl : w = v := Option.some.inj (hr.serves.get.symm.trans hj)
      exact absurd he hr.inLoop.2

theorem Marked.clear (h : s.Marked) (hinv : s.Inv) {thread : Option Nat}
    (hc : s.caller = .stopClear k thread) : (s.clear k thread).Marked := by
  intro j v hj he hor
  have hcaller := hinv.caller
  rw [hc] at hcaller
  cases thread with
  | none => exact hcaller.elim
  | some i =>
    have hr : v.stopResult = some false := hor.resolve_right id
    have hflag := hasExited_setState (s := s) (k := k)
      (a := { s.states k with started := false, stopRequested := false, tasks := [] }) rfl v.state
    obtain ⟨rfl, w, hw, rfl⟩ | ⟨-, hj⟩ := get_modifyWorker hj
    · cases hr
    · exact hflag.trans (h j v hj he (.inl hr))

theorem Marked.replace (h : s.Marked) (hc : s.caller = .stopReplace k i) : (s.replace k i).Marked := by
  intro j v hj he hor
  obtain ⟨rfl, w, hw, rfl⟩ | ⟨-, hj⟩ := get_modifyWorker hj
  · refine h j w hw he (.inr ?_)
    rw [hc]
    rfl
  · exact h j v hj he (.inl (hor.resolve_right id))

theorem Marked.push (h : s.Marked) (k : Nat) (task : α) : (s.push k task).Marked := by
  obtain ⟨-, hcaller, -, hflag, hplace⟩ := s.push_frame k task
  intro j v hj he hor
  have hmap := congrArg (·[j]?) hplace
  simp only [List.getElem?_map, hj, Option.map_some] at hmap
  obtain ⟨w, hw, hwv⟩ := Option.map_eq_some_iff.1 hmap.symm
  simp only [Worker.place, Prod.mk.injEq] at hwv
  obtain ⟨hstate, hpc, hresult⟩ := hwv
  rw [hflag, ← hstate]
  rw [hcaller, ← hresult] at hor
  exact h j w hw (hpc.trans he) hor

theorem step_marked (h : s.Marked) (hinv : s.Inv) (ht : s.step a = some t) : t.Marked := by
  cases step_cases ht with
  | empty => exact h
  | execute task => exact h
  | @lock k call hcall => exact Marked.push (s := { s with executing := s.executing.eraseIdx k }) h _ _
  | start hc => exact h.start hinv
  | createThread failure hc => exact h.createThread hinv failure
  | setStarted hc =>
    intro j v hj he hor
    have hflag := hasExited_setState (s := s) (k := s.current) (a := { s.state with started := true }) rfl v.state
    exact hflag.trans (h j v hj he (.inl (hor.resolve_right id)))
  | stop hc => exact h.stop hinv hc
  | exited hc hx => exact fun j v hj he hor => h j v hj he (.inl (hor.resolve_right id))
  | @timedOut k i hc =>
    intro j v hj he hor
    refine h j v hj he (hor.imp id fun hi => ?_)
    rw [hc]
    exact hi
  | join hc => exact fun j v hj he hor => h j v hj he (.inl (hor.resolve_right id))
  | clear hc => exact h.clear hinv hc
  | replace hc => exact h.replace hc
  | @work i w _ hi hw =>
    obtain ⟨hkeep, hmark⟩ := work_marks hw
    obtain ⟨state', w', -, rfl⟩ := work_step (hinv.worker i w hi) hw
    intro j v hj he hor
    obtain ⟨rfl, rfl⟩ | ⟨-, hj'⟩ := get_set hj
    · exact hmark v hj he
    · exact hkeep _ (h j v hj' he hor)

/-! ## The workers of a backend -/

theorem start_workers (s : DefaultInstanceExecutionBackend α) : s.start.workers = s.workers := by
  unfold start
  split_ifs <;> rfl

theorem stop_workers (s : DefaultInstanceExecutionBackend α) : s.stop.workers = s.workers := by
  unfold stop
  split_ifs <;> rfl

theorem modifyWorker_place {f : Worker α → Worker α} (hstate : ∀ w, (f w).state = w.state)
    (hpc : ∀ w, (f w).pc = w.pc) (j : Nat) (hi : s.workers[i]? = some w) :
    ∃ w', (s.workers.modify j f)[i]? = some w' ∧ w'.state = w.state ∧ (w.pc = .exited → w'.pc = .exited) := by
  rw [List.getElem?_modify, hi]
  refine ⟨_, rfl, ?_, fun he => ?_⟩
  · split
    · exact hstate w
    · rfl
  · split
    · exact (hpc w).trans he
    · exact he

/-- A worker stays the worker of its `State`, and at its end. -/
theorem step_worker (hinv : s.Inv) (ht : s.step a = some t) (hi : s.workers[i]? = some w) :
    ∃ w', t.workers[i]? = some w' ∧ w'.state = w.state ∧ (w.pc = .exited → w'.pc = .exited) := by
  have hsame : ∃ w', s.workers[i]? = some w' ∧ w'.state = w.state ∧ (w.pc = .exited → w'.pc = .exited) :=
    ⟨w, hi, rfl, id⟩
  cases step_cases ht with
  | empty => exact hsame
  | execute task => exact hsame
  | @lock k call hcall =>
    obtain ⟨-, -, -, -, hplace⟩ := push_frame { s with executing := s.executing.eraseIdx k } call.1 call.2
    have hmap := congrArg (·[i]?) hplace
    simp only [List.getElem?_map, hi, Option.map_some] at hmap
    obtain ⟨w', hw', hplace⟩ := Option.map_eq_some_iff.1 hmap
    simp only [Worker.place, Prod.mk.injEq] at hplace
    exact ⟨w', hw', hplace.1, fun he => hplace.2.1.trans he⟩
  | start hc => rwa [start_workers]
  | createThread failure hc =>
    cases failure with
    | none =>
      exact ⟨w, (List.getElem?_append_left (List.getElem?_eq_some_iff.1 hi).1).trans hi, rfl, id⟩
    | some what => exact hsame
  | setStarted hc => exact hsame
  | stop hc => rwa [stop_workers]
  | exited hc hx => exact hsame
  | timedOut hc => exact hsame
  | join hc => exact hsame
  | @clear k thread hc =>
    cases thread with
    | none => exact hsame
    | some j =>
      exact modifyWorker_place (f := fun w => { w with stopResult := some true }) (fun _ => rfl)
        (fun _ => rfl) j hi
  | @replace k j hc =>
    exact modifyWorker_place (f := fun w => { w with stopResult := some false }) (fun _ => rfl)
      (fun _ => rfl) j hi
  | @work j v _ hj hv =>
    obtain ⟨state', v', hs, rfl⟩ := work_step (hinv.worker j v hj) hv
    by_cases hij : j = i
    · subst hij
      obtain rfl : v = w := Option.some.inj (hj.symm.trans hi)
      refine ⟨v', List.getElem?_set_self (List.getElem?_eq_some_iff.1 hj).1, hs.state, fun he => ?_⟩
      exact absurd he hs.live
    · exact ⟨w, (List.getElem?_set_ne hij).trans hi, rfl, id⟩

/-- The `stop` for the worker numbered `i` has timed out, on the `State` numbered `k`. -/
def Abandoned (s : DefaultInstanceExecutionBackend α) (k i : Nat) : Prop :=
  ∃ w, s.workers[i]? = some w ∧ w.state = k ∧
    (w.stopResult = some false ∨ s.caller = .stopReplace k i)

theorem Abandoned.step (h : s.Abandoned k i) (hinv : s.Inv) (ht : s.step a = some t) : t.Abandoned k i := by
  obtain ⟨w, hi, hstate, hor⟩ := h
  obtain ⟨w', hw', hstate', -⟩ := step_worker hinv ht hi
  refine ⟨w', hw', hstate'.trans hstate, ?_⟩
  obtain hr | hc := hor
  · obtain ⟨v, hv, hr', -⟩ := step_abandoned hinv hi hr ht
    obtain rfl : v = w' := Option.some.inj (hv.symm.trans hw')
    exact .inl hr'
  · cases step_cases ht with
    | empty => exact .inr hc
    | execute task => exact .inr hc
    | @lock j call hcall =>
      exact .inr ((push_frame { s with executing := s.executing.eraseIdx j } call.1 call.2).2.1.trans hc)
    | start hc' => cases hc.symm.trans hc'
    | createThread failure hc' => cases hc.symm.trans hc'
    | setStarted hc' => cases hc.symm.trans hc'
    | stop hc' => cases hc.symm.trans hc'
    | exited hc' hx => cases hc.symm.trans hc'
    | timedOut hc' => cases hc.symm.trans hc'
    | join hc' => cases hc.symm.trans hc'
    | clear hc' => cases hc.symm.trans hc'
    | replace hc' =>
      cases hc.symm.trans hc'
      obtain ⟨-, v, -, rfl⟩ | ⟨hne, -⟩ := get_modifyWorker hw'
      · exact .inl rfl
      · exact absurd rfl hne
    | @work j v _ hj hv =>
      obtain ⟨state', v', -, rfl⟩ := work_step (hinv.worker j v hj) hv
      exact .inr hc

/-- The registry sees when an abandoned worker has come to its end. -/
theorem Abandoned.hasExited (h : s.Abandoned k i) (hinv : s.Inv) (hm : s.Marked) :
    s.hasExited k = true ↔ ∃ w, s.workers[i]? = some w ∧ w.pc = .exited := by
  obtain ⟨w, hi, rfl, hor⟩ := h
  refine ⟨fun hx => ⟨w, hi, ?_⟩, fun ⟨w', hw', he⟩ => ?_⟩
  · by_contra hne
    have hlive := ((hinv.worker i w hi).live hne).2.1
    cases hlive.symm.trans hx
  · obtain rfl : w = w' := Option.some.inj (hi.symm.trans hw')
    refine hm i w hi he (hor.imp id fun hc => ?_)
    rw [hc]
    rfl

/-! ## The handles of a backend -/

/-- What a step does with the handles of the backend and of its `stop`. -/
inductive HandleStep (s : DefaultInstanceExecutionBackend α) (a : Act α)
    (t : DefaultInstanceExecutionBackend α) : Prop
  | keeps : a ≠ .replace → s.threadOps a = [] → t.workers.length = s.workers.length → t.handles = s.handles →
      (∀ k i, s.caller = .stopReplace k i → t.thread = s.thread ∧ t.caller = s.caller) → HandleStep s a t
  | creates : s.threadOps a = [.acquire s.workers.length] → t.workers.length = s.workers.length + 1 →
      s.caller = .startThread → s.handles = [] → t.handles = [s.workers.length] → HandleStep s a t
  | joins (i : Nat) : s.threadOps a = [.release (some i)] → t.workers.length = s.workers.length →
      (∃ k, s.caller = .stopJoin k i) → s.handles = [i] → t.handles = [] →
      (∃ w, s.workers[i]? = some w ∧ w.pc = .exited) → HandleStep s a t
  | forgets : a = .replace → s.threadOps a = [] → t.workers.length = s.workers.length → s.thread = none →
      t.handles = [] → HandleStep s a t

theorem step_handles (hinv : s.Inv) (ht : s.step a = some t) : s.HandleStep a t := by
  have hcaller := hinv.caller
  -- no step of the other callers changes what is held
  have hquiet {t : DefaultInstanceExecutionBackend α} (ha : a ≠ .replace) (hops : s.threadOps a = [])
      (hlen : t.workers.length = s.workers.length) (hthread : t.thread = s.thread)
      (hcall : t.caller = s.caller) : s.HandleStep a t :=
    .keeps ha hops hlen (by rw [handles, handles, hthread, hcall]) fun _ _ _ => ⟨hthread, hcall⟩
  cases step_cases ht with
  | empty => exact hquiet nofun rfl rfl rfl rfl
  | execute task => exact hquiet nofun rfl rfl rfl rfl
  | @lock k call hcall =>
    obtain ⟨hthread, hc, -, -, hplace⟩ := push_frame { s with executing := s.executing.eraseIdx k } call.1 call.2
    exact hquiet nofun rfl (by simpa using congrArg List.length hplace) hthread hc
  | start hc =>
    rw [hc] at hcaller
    refine .keeps nofun rfl (congrArg _ s.start_workers) ?_ fun k i hr => by cases hc.symm.trans hr
    unfold start handles
    split_ifs
    · rfl
    · rfl
    · rw [hc]
      rfl
  | createThread failure hc =>
    rw [hc] at hcaller
    have hnone : s.handles = [] := by rw [handles, hcaller.1.thread, hc]; rfl
    cases failure with
    | none => exact .creates rfl List.length_append hc hnone rfl
    | some what =>
      refine .keeps nofun rfl rfl ?_ fun k i hr => by cases hc.symm.trans hr
      rw [hnone, handles]
      show s.thread.toList ++ [] = []
      rw [hcaller.1.thread]
      rfl
  | setStarted hc =>
    refine .keeps nofun rfl rfl ?_ fun k i hr => by cases hc.symm.trans hr
    rw [handles, handles, hc]
    rfl
  | stop hc =>
    refine .keeps nofun rfl (congrArg _ s.stop_workers) ?_ fun k i hr => by cases hc.symm.trans hr
    unfold stop handles
    split_ifs
    · rfl
    · rw [hc]
      -- the thread is moved
      cases s.thread with
      | none => rfl
      | some i => rfl
  | exited hc hx =>
    refine .keeps nofun rfl rfl ?_ fun k i hr => by cases hc.symm.trans hr
    rw [handles, handles, hc]
    rfl
  | timedOut hc =>
    refine .keeps nofun rfl rfl ?_ fun k i hr => by cases hc.symm.trans hr
    rw [handles, handles, hc]
    rfl
  | @join k i hc =>
    rw [hc] at hcaller
    obtain ⟨w, hr, he⟩ := hcaller
    refine .joins i ?_ rfl ⟨k, hc⟩ ?_ ?_ ⟨w, hr.serves.get, he⟩
    · rw [threadOps, hc]
      rfl
    · rw [handles, hr.thread, hc]
      rfl
    · rw [handles, hr.thread]
      rfl
  | @clear k thread hc =>
    rw [hc] at hcaller
    cases thread with
    | none => exact hcaller.elim
    | some i =>
      refine .keeps nofun rfl (List.length_modify _ _ _) ?_ fun k i hr => by cases hc.symm.trans hr
      rw [handles, handles, hc]
      rfl
  | @replace k i hc =>
    rw [hc] at hcaller
    obtain ⟨w, hr⟩ := hcaller
    refine .forgets rfl rfl (List.length_modify _ _ _) hr.thread ?_
    show s.thread.toList ++ [] = []
    rw [hr.thread]
    rfl
  | @work i w _ hi hw =>
    obtain ⟨state', w', -, rfl⟩ := work_step (hinv.worker i w hi) hw
    exact hquiet nofun rfl List.length_set rfl rfl

/-- No joinable `m_thread` is assigned to. -/
theorem not_overwrites (hinv : s.Inv) (ht : s.step a = some t) : s.overwrites a = false := by
  have hcaller := hinv.caller
  cases step_cases ht with
  | createThread failure hc =>
    rw [hc] at hcaller
    cases failure with
    | none => rw [overwrites, hcaller.1.thread]; rfl
    | some what => rfl
  | _ => rfl

/-- A `stop` has been called since the last `start`. -/
structure Halting (s : DefaultInstanceExecutionBackend α) : Prop where
  serving : s.serving = false
  startThread : s.caller ≠ .startThread
  startFlag : s.caller ≠ .startFlag

theorem stop_halting (hinv : s.Inv) (hc : s.caller = .idle) : s.stop.Halting := by
  have hidle := hinv.caller
  rw [hc] at hidle
  unfold stop
  obtain hr | ⟨i, w, hr⟩ := hidle
  · rw [if_pos (by rw [hr.started, hr.thread]; rfl)]
    refine ⟨hr.serving, ?_, ?_⟩
    · rw [hc]; nofun
    · rw [hc]; nofun
  · rw [if_neg (by rw [hr.started]; nofun)]
    simp only [hr.thread]
    exact ⟨rfl, nofun, nofun⟩

theorem step_halting (h : s.Halting) (hinv : s.Inv) (ha : a ≠ .start) (ht : s.step a = some t) : t.Halting := by
  cases step_cases ht with
  | empty => exact ⟨h.serving, h.startThread, h.startFlag⟩
  | execute task => exact ⟨h.serving, h.startThread, h.startFlag⟩
  | @lock k call hcall =>
    obtain ⟨-, hc, hserving, -⟩ := push_frame { s with executing := s.executing.eraseIdx k } call.1 call.2
    refine ⟨hserving.trans h.serving, ?_, ?_⟩
    · rw [hc]; exact h.startThread
    · rw [hc]; exact h.startFlag
  | start hc => exact absurd rfl ha
  | createThread failure hc => exact absurd hc h.startThread
  | setStarted hc => exact absurd hc h.startFlag
  | stop hc => exact stop_halting hinv hc
  | exited hc hx => exact ⟨h.serving, nofun, nofun⟩
  | timedOut hc => exact ⟨h.serving, nofun, nofun⟩
  | join hc => exact ⟨h.serving, nofun, nofun⟩
  | @clear k thread hc => cases thread <;> exact ⟨h.serving, nofun, nofun⟩
  | replace hc => exact ⟨h.serving, nofun, nofun⟩
  | @work i w _ hi hw =>
    obtain ⟨state', w', -, rfl⟩ := work_step (hinv.worker i w hi) hw
    exact ⟨h.serving, h.startThread, h.startFlag⟩

theorem Halting.thread (h : s.Halting) (hinv : s.Inv) (hc : s.caller = .idle) : s.thread = none := by
  have hidle := hinv.caller
  rw [hc] at hidle
  obtain hr | ⟨i, w, hr⟩ := hidle
  · exact hr.thread
  · cases hr.serving.symm.trans h.serving

end DefaultInstanceExecutionBackend

end Phi.Host
