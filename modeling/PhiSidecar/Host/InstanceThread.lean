import PhiSidecar.Host.TimedHost

/-!
# The thread of an instance

What an instance's thread can do (`WorkStep`) and what the host can schedule on it (`Script`) keep it
`Ok`: it calls what was scheduled, in order.
-/

set_option autoImplicit false

namespace Phi.Host

open Phi.V1 Phi.Wire Phi.Dispatcher

/-- A hook other than `start()` and `stop()`. -/
def Task.IsOther (task : Task) : Prop := task ≠ .start ∧ task ≠ .stop

/-- What a host schedules on one instance. -/
inductive Script : List Task → Prop
  | none : Script []
  | hosted {l : List Task} (h : ∀ task ∈ l, task.IsOther) : Script (.start :: l)
  | removed {l : List Task} (h : ∀ task ∈ l, task.IsOther) : Script (.start :: (l ++ [.stop]))

/-- A script has `stop()` at its end only. -/
theorem Script.stop {l : List Task} (h : Script l) {k k' : List Task} (he : l = k ++ .stop :: k') :
    .stop ∉ k ∧ k' = [] := by
  cases h with
  | none => simp at he
  | @hosted l h =>
    have hmem : .stop ∈ Task.start :: l := by simp [he]
    rcases List.mem_cons.1 hmem with hs | hs
    · cases hs
    · exact absurd rfl (h _ hs).2
  | @removed l h =>
    have hnot : .stop ∉ Task.start :: l := by
      intro hmem
      rcases List.mem_cons.1 hmem with hs | hs
      · cases hs
      · exact absurd rfl (h _ hs).2
    rw [← List.cons_append] at he
    rcases List.eq_nil_or_concat k' with rfl | ⟨m, x, rfl⟩
    · obtain ⟨rfl, -⟩ := List.append_inj' he rfl
      exact ⟨hnot, rfl⟩
    · have he' : (Task.start :: l) ++ [.stop] = (k ++ .stop :: m) ++ [x] := by
        rw [he]
        simp
      obtain ⟨heq, -⟩ := List.append_inj' he' rfl
      exact absurd (by simp [heq]) hnot

/-- An instance is being created, with the next number. -/
def Wait.isNew : Wait → Bool
  | .starting _ _ | .rollback _ _ => true
  | .idle | .stopping _ _ | .joining _ _ => false

def Wait.isStarting : Wait → Bool
  | .starting _ _ => true
  | .idle | .rollback _ _ | .stopping _ _ | .joining _ _ => false

/-- The number of the instance that is being removed. -/
def Wait.leaving : Wait → Option Nat
  | .stopping _ i | .joining _ i => some i
  | .idle | .starting _ _ | .rollback _ _ => none

namespace InstanceThread

variable {w w' : InstanceThread}

/-- The failure of its `start()` is the last thing that an instance is told. -/
structure Failed (w : InstanceThread) : Prop where
  startResult : w.startResult = some false
  scheduled : w.scheduled = [.start]
  executed : w.executed = [.start, startFailed]
  tasks : w.backend.tasks = []

structure Ok (w : InstanceThread) : Prop where
  drained : w.backend.Drained
  line : w.reported = false → w.executed ++ w.backend.tasks = w.scheduled
  begun : w.backend.running ≠ none → w.executed ≠ []
  /-- The host goes on only with an instance that has started. -/
  new : w.startResult ≠ some true → w.scheduled = [] ∨ w.scheduled = [.start]
  done : ∀ ok, w.startDone = some ok → w.startResult = some ok
  reported : w.reported = true → w.Failed

theorem Ok.init : ({} : InstanceThread).Ok :=
  ⟨.new, fun _ => rfl, fun h => absurd rfl h, fun _ => .inl rfl, nofun, nofun⟩

theorem Ok.starting : starting.Ok :=
  ⟨⟨nofun, nofun⟩, fun _ => rfl, fun h => absurd rfl h, fun _ => .inr rfl, nofun, nofun⟩

/-! ## Its thread -/

/-- What the thread of an instance can do. -/
inductive WorkStep (w : InstanceThread) : InstanceThread → Prop
  | take {task : Task} {tasks : List Task} (hx : w.backend.workerExited = false)
      (ht : w.backend.tasks = task :: tasks) :
      WorkStep w { w with backend := { w.backend with tasks, running := some task }
                          executed := w.executed ++ [task] }
  | startReturns (ok : Bool) (h : w.startResult = none) :
      WorkStep w { w with startResult := some ok }
  | report (hr : w.backend.running ≠ none) (h : w.startResult = some false) (hn : w.reported = false) :
      WorkStep w { w with reported := true, executed := w.executed ++ [startFailed] }
  | startDone (ok : Bool) (h : w.startResult = some ok) :
      WorkStep w { w with startDone := some ok, backend := w.backend.finish }
  | finish (stopDone : Bool) : WorkStep w { w with backend := w.backend.finish, stopDone := stopDone }
  | exit {backend : Backend Task} (h : w.backend.exit = some backend) : WorkStep w { w with backend }

theorem work_step {a : Work} (h : w.work a = some w') : WorkStep w w' := by
  cases a with
  | take =>
    obtain ⟨b, hb, rfl⟩ := Option.map_eq_some_iff.1 h
    obtain ⟨task, tasks, hx, -, ht, rfl⟩ := Backend.take_cases hb
    exact .take hx ht
  | startReturns ok =>
    simp only [work] at h
    split at h
    · next hr =>
      cases h
      exact .startReturns ok hr
    · cases h
  | report =>
    simp only [work] at h
    split at h
    · next hr hs hn =>
      cases h
      exact .report (by simp [hr]) hs hn
    · cases h
  | startDone =>
    simp only [work] at h
    split at h
    · next ok _ hs =>
      split at h
      · cases h
        exact .startDone ok hs
      · cases h
    · cases h
  | returns =>
    simp only [work] at h
    split at h
    · cases h
    · cases h
    · cases h
      exact .finish _
  | throws =>
    simp only [work] at h
    split at h
    · cases h
    · split at h
      · cases h
        exact .finish w.stopDone
      · cases h
    · cases h
      exact .finish w.stopDone
  | exit =>
    obtain ⟨b, hb, rfl⟩ := Option.map_eq_some_iff.1 h
    exact .exit hb

/-- What stays as it is, whatever the thread does. -/
structure Kept (w w' : InstanceThread) : Prop where
  scheduled : w'.scheduled = w.scheduled
  started : w'.backend.started = w.backend.started
  stopRequested : w'.backend.stopRequested = w.backend.stopRequested
  startResult : ∀ ok, w.startResult = some ok → w'.startResult = some ok
  startDone : ∀ ok, w.startDone = some ok → w'.startDone = some ok
  exited : w.backend.workerExited = true → w'.backend.workerExited = true

theorem WorkStep.kept (hw : w.Ok) (h : WorkStep w w') : Kept w w' := by
  cases h with
  | take hx ht => exact ⟨rfl, rfl, rfl, fun _ h => h, fun _ h => h, fun h => h⟩
  | startReturns ok hr =>
    refine ⟨rfl, rfl, rfl, fun ok' h => ?_, fun _ h => h, fun h => h⟩
    rw [hr] at h
    cases h
  | report hr hs hn => exact ⟨rfl, rfl, rfl, fun _ h => h, fun _ h => h, fun h => h⟩
  | startDone ok hs =>
    refine ⟨rfl, rfl, rfl, fun _ h => h, fun ok' h => ?_, fun h => h⟩
    rw [← hs, hw.done ok' h]
  | finish d => exact ⟨rfl, rfl, rfl, fun _ h => h, fun _ h => h, fun h => h⟩
  | exit he =>
    obtain ⟨-, -, rfl⟩ := Backend.exit_cases he
    exact ⟨rfl, rfl, rfl, fun _ h => h, fun _ h => h, fun _ => rfl⟩

theorem WorkStep.ok (hw : w.Ok) (h : WorkStep w w') : w'.Ok := by
  cases h with
  | @take task tasks hx ht =>
    refine ⟨⟨fun hx' => by simp [hx] at hx', fun hx' => by simp [hx] at hx'⟩, fun hn => ?_, by simp, hw.new,
      hw.done, fun hr => ?_⟩
    · have hline := hw.line hn
      rw [ht] at hline
      rw [List.append_assoc]
      exact hline
    · have htasks := (hw.reported hr).tasks
      rw [ht] at htasks
      cases htasks
  | startReturns ok hr =>
    refine ⟨hw.drained, hw.line, hw.begun, fun _ => hw.new (by simp [hr]), fun ok' h => ?_, fun h => ?_⟩
    · cases hr.symm.trans (hw.done ok' h)
    · cases hr.symm.trans (hw.reported h).startResult
  | report hr hs hn =>
    have hline := hw.line hn
    have hne := hw.begun hr
    refine ⟨hw.drained, nofun, by simp, hw.new, hw.done, fun _ => ?_⟩
    -- the start task is running, so it has been accepted, and nothing else has
    rcases hw.new (by simp [hs]) with h | h
    · rw [h] at hline
      exact absurd (List.append_eq_nil_iff.1 hline).1 hne
    · rw [h] at hline
      rcases List.append_eq_singleton_iff.1 hline with ⟨he, -⟩ | ⟨he, ht⟩
      · exact absurd he hne
      · exact ⟨hs, h, by rw [he]; rfl, ht⟩
  | startDone ok hs =>
    refine ⟨hw.drained.finish, hw.line, fun h => absurd rfl h, hw.new, fun ok' h => ?_, fun h => ?_⟩
    · cases h
      exact hs
    · obtain ⟨h1, h2, h3, h4⟩ := hw.reported h
      exact ⟨h1, h2, h3, h4⟩
  | finish d =>
    refine ⟨hw.drained.finish, hw.line, fun h => absurd rfl h, hw.new, hw.done, fun h => ?_⟩
    obtain ⟨h1, h2, h3, h4⟩ := hw.reported h
    exact ⟨h1, h2, h3, h4⟩
  | exit he =>
    have hd := Backend.Drained.exit he
    obtain ⟨-, -, rfl⟩ := Backend.exit_cases he
    refine ⟨hd, hw.line, hw.begun, hw.new, hw.done, fun h => ?_⟩
    obtain ⟨h1, h2, h3, h4⟩ := hw.reported h
    exact ⟨h1, h2, h3, h4⟩

/-! ## Scheduling -/

/-- An instance in the registry. -/
structure Serving (w : InstanceThread) : Prop where
  scheduled : ∃ l, (∀ task ∈ l, task.IsOther) ∧ w.scheduled = .start :: l
  done : w.startDone = some true
  started : w.backend.started = true
  stopRequested : w.backend.stopRequested = false

/-- An instance whose `stop()` has been scheduled. -/
def Leaving (w : InstanceThread) : Prop :=
  ∃ l, (∀ task ∈ l, task.IsOther) ∧ w.scheduled = .start :: (l ++ [.stop])

theorem Kept.serving (h : Kept w w') (hw : w.Serving) : w'.Serving where
  scheduled := by
    rw [h.scheduled]
    exact hw.scheduled
  done := h.startDone true hw.done
  started := h.started.trans hw.started
  stopRequested := h.stopRequested.trans hw.stopRequested

theorem Serving.execute_eq (hw : w.Serving) (task : Task) : w.execute task =
    ({ w with backend := { w.backend with tasks := w.backend.tasks ++ [task] }
              scheduled := w.scheduled ++ [task] }, .ok ()) := by
  simp [InstanceThread.execute, Backend.execute, hw.started, hw.stopRequested]

theorem Serving.not_reported (hw : w.Serving) (h : w.Ok) : w.reported = false := by
  cases hr : w.reported with
  | false => rfl
  | true => cases (h.done true hw.done).symm.trans (h.reported hr).startResult

theorem Ok.execute (h : w.Ok) (hw : w.Serving) (task : Task) : (w.execute task).1.Ok := by
  have hstart := h.done true hw.done
  have hnot := hw.not_reported h
  have hdrained := h.drained.execute task
  rw [show (w.backend.execute task).1 = { w.backend with tasks := w.backend.tasks ++ [task] } by
    simp [Backend.execute, hw.started, hw.stopRequested]] at hdrained
  rw [hw.execute_eq]
  refine ⟨hdrained, fun _ => ?_, h.begun, fun hne => absurd hstart hne, h.done, fun hr => ?_⟩
  · rw [← h.line hnot, List.append_assoc]
  · cases hnot.symm.trans hr

theorem Serving.execute (hw : w.Serving) {task : Task} (ht : task.IsOther) :
    (w.execute task).1.Serving := by
  obtain ⟨l, hl, hs⟩ := hw.scheduled
  rw [hw.execute_eq]
  refine ⟨⟨l ++ [task], ?_, ?_⟩, hw.done, hw.started, hw.stopRequested⟩
  · intro t ht'
    rcases List.mem_append.1 ht' with ht' | ht'
    · exact hl t ht'
    · rw [List.mem_singleton.1 ht']
      exact ht
  · rw [hs]
    rfl

theorem Serving.execute_stop (hw : w.Serving) : (w.execute .stop).1.Leaving := by
  obtain ⟨l, hl, hs⟩ := hw.scheduled
  rw [hw.execute_eq]
  exact ⟨l, hl, by rw [hs]; rfl⟩

theorem Serving.script (hw : w.Serving) : Script w.scheduled := by
  obtain ⟨l, hl, hs⟩ := hw.scheduled
  rw [hs]
  exact .hosted hl

theorem Leaving.script (hw : w.Leaving) : Script w.scheduled := by
  obtain ⟨l, hl, hs⟩ := hw
  rw [hs]
  exact .removed hl

theorem Ok.requestStop (h : w.Ok) : Ok { w with backend := w.backend.requestStop } := by
  refine ⟨h.drained.requestStop, h.line, h.begun, h.new, h.done, fun hr => ?_⟩
  obtain ⟨h1, h2, h3, h4⟩ := h.reported hr
  exact ⟨h1, h2, h3, h4⟩

theorem Ok.stopped (h : w.Ok) (hx : w.backend.workerExited = true) :
    Ok { w with backend := w.backend.stopped } := by
  have hp := h.drained.pending hx
  simp only [Backend.pending, List.append_eq_nil_iff] at hp
  refine ⟨h.drained.stopped, fun hn => ?_, h.begun, h.new, h.done, fun hr => ?_⟩
  · have hline := h.line hn
    rw [hp.2] at hline
    exact hline
  · obtain ⟨h1, h2, h3, -⟩ := h.reported hr
    exact ⟨h1, h2, h3, rfl⟩

end InstanceThread

/-! ## The order of the hooks -/

namespace InstanceThread

/-- The hooks of an instance come as they should: `start()` first; in the order in which they were
scheduled, but for the report of a `start()` that failed, which is the last one; and `stop()` at the
end, if it is called. -/
structure InOrder (w : InstanceThread) : Prop where
  start : w.executed = [] ∨ ∃ l, w.executed = .start :: l
  order : w.executed <+: w.scheduled ∨
    w.startResult = some false ∧ w.scheduled = [.start] ∧ w.executed = [.start, startFailed]
  stop : ∀ l l', w.executed = l ++ .stop :: l' → .stop ∉ l ∧ l' = []

variable {w : InstanceThread}

theorem Ok.inOrder (h : w.Ok) (hs : Script w.scheduled) : w.InOrder := by
  cases hr : w.reported with
  | true =>
    obtain ⟨h1, h2, h3, -⟩ := h.reported hr
    refine ⟨.inr ⟨[startFailed], h3⟩, .inr ⟨h1, h2, h3⟩, fun l l' he => ?_⟩
    have hmem : Task.stop ∈ [Task.start, startFailed] := by
      rw [← h3, he]
      simp
    simp [startFailed] at hmem
  | false =>
    have hpre : w.executed <+: w.scheduled := ⟨_, h.line hr⟩
    refine ⟨?_, .inl hpre, fun l l' he => ?_⟩
    · cases hx : w.executed with
      | nil => exact .inl rfl
      | cons task l =>
        rw [hx] at hpre
        cases hsch : w.scheduled with
        | nil => simp [hsch] at hpre
        | cons task' l' =>
          rw [hsch] at hpre hs
          obtain ⟨rfl, -⟩ := List.cons_prefix_cons.1 hpre
          cases hs with
          | hosted _ => exact .inr ⟨l, rfl⟩
          | removed _ => exact .inr ⟨l, rfl⟩
    · obtain ⟨r, hr⟩ := hpre
      rw [he, List.append_assoc, List.cons_append] at hr
      obtain ⟨hnot, hnil⟩ := hs.stop hr.symm
      exact ⟨hnot, (List.append_eq_nil_iff.1 hnil).1⟩

end InstanceThread

end Phi.Host
