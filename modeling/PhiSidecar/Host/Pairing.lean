import PhiSidecar.Host.HookOrder

/-!
# A `stop()` for every `start()`

* `run_paired`: **the hooks of every instance are in order, and an instance whose `start()` returned true
  has had its one `stop()` before it is destroyed, in every run in which the host still waits for each
  `start()` that returns true, until it is told**.
* `run_unpaired`: an instance whose `start()` takes longer than the wait for it is destroyed without a
  `stop()`, while its start task waits for `startMutex`.
-/

set_option autoImplicit false

namespace Phi.Host

open Phi.V1 Phi.Wire Phi.Dispatcher

namespace TimedHost

open InstanceThread

variable {s t : TimedHost} {i : Nat} {w : InstanceThread}

/-- The host waits for every `start()` that returns true until it is told. -/
def Timely (s : TimedHost) : HookAct → Prop
  | .work i (.startReturns true) => i = s.registry.created.length ∧ s.wait.isStarting = true
  | .timeout => s.wait.isStarting = true →
    (s.threads s.registry.created.length).startResult ≠ some true
  | _ => True

instance (s : TimedHost) : DecidablePred s.Timely := fun a => by
  unfold Timely
  split <;> infer_instance

structure Paired (s : TimedHost) : Prop where
  gone : ∀ i < s.registry.created.length, i ∉ s.registry.hosted →
    (s.threads i).startResult = some true → (s.threads i).Leaving
  destroyed : ∀ i ∈ s.registry.destroyed, (s.threads i).startResult = some true →
    (s.threads i).backend.workerExited = true
  rollback : ∀ request a, s.wait = .rollback request a →
    (s.threads s.registry.created.length).startResult ≠ some true

theorem Paired.init : Paired {} :=
  ⟨fun i hi => absurd hi (Nat.not_lt_zero i), by simp, nofun⟩

/-- A step of threads. -/
theorem Paired.threads (h : s.Paired) (hs : s.Inv) (hreg : t.registry = s.registry)
    (hthreads : ∀ i < s.registry.created.length,
      ((t.threads i).startResult = some true → (s.threads i).startResult = some true) ∧
        ((s.threads i).backend.workerExited = true → (t.threads i).backend.workerExited = true) ∧
        (i ∉ s.registry.hosted → (t.threads i).scheduled = (s.threads i).scheduled))
    (hrollback : ∀ request a, t.wait = .rollback request a →
      (t.threads s.registry.created.length).startResult ≠ some true) : t.Paired := by
  refine ⟨?_, ?_, ?_⟩
  · rw [hreg]
    intro i hi hnot hst
    obtain ⟨h1, -, h3⟩ := hthreads i hi
    obtain ⟨l, hl, hsch⟩ := h.gone i hi hnot (h1 hst)
    exact ⟨l, hl, (h3 hnot).trans hsch⟩
  · rw [hreg]
    intro i hi hst
    obtain ⟨h1, h2, -⟩ := hthreads i (hs.valid.lt_created (.inr hi))
    exact h2 (h.destroyed i hi (h1 hst))
  · rw [hreg]
    exact hrollback

/-- A step of the host on the thread of one instance, in the registry or new. -/
theorem Paired.setThread (h : s.Paired) (hs : s.Inv) (wait : Wait)
    (hi : i ∈ s.registry.hosted ∨ i = s.registry.created.length)
    (hstart : w.startResult = (s.threads i).startResult)
    (hexited : i ∈ s.registry.hosted → w.backend.workerExited = (s.threads i).backend.workerExited)
    (hrollback : ∀ request a, wait = .rollback request a →
      (s.threads s.registry.created.length).startResult ≠ some true) :
    Paired { s.setThread i w with wait := wait } := by
  refine h.threads hs rfl (fun j hj => ?_) fun request a hw => ?_
  · by_cases hji : j = i
    · subst hji
      have hmem : j ∈ s.registry.hosted := hi.resolve_right (Nat.ne_of_lt hj)
      refine ⟨fun hst => ?_, fun hx => ?_, fun hnot => absurd hmem hnot⟩
      · rw [← hstart, ← setThread_self s j w]
        exact hst
      · rw [← hexited hmem, ← setThread_self s j w] at hx
        exact hx
    · rw [show ({ s.setThread i w with wait := wait } : TimedHost).threads j = s.threads j from
        setThread_ne hji]
      exact ⟨fun h => h, fun h => h, fun _ => rfl⟩
  · by_cases hni : s.registry.created.length = i
    · rw [hni, show ({ s.setThread i w with wait := wait } : TimedHost).threads i = w from
        setThread_self s i w, hstart, ← hni]
      exact hrollback request a hw
    · rw [show ({ s.setThread i w with wait := wait } : TimedHost).threads _ = s.threads _ from
        setThread_ne hni]
      exact hrollback request a hw

theorem work_startResult {a : Work} {w' : InstanceThread} (h : w.work a = some w') :
    w'.startResult = w.startResult ∨ ∃ ok, a = .startReturns ok ∧ w'.startResult = some ok := by
  cases a with
  | startReturns ok =>
    simp only [InstanceThread.work] at h
    split at h
    · cases h
      exact .inr ⟨ok, rfl, rfl⟩
    · cases h
  | take | exit =>
    obtain ⟨b, -, rfl⟩ := Option.map_eq_some_iff.1 h
    exact .inl rfl
  | report | startDone | returns | throws =>
    simp only [InstanceThread.work] at h
    split at h <;> first
      | cases h; exact .inl rfl
      | (split at h <;> cases h; exact .inl rfl)
      | cases h

theorem Paired.work (h : s.Paired) (hs : s.Inv) {a : Work} (hok : s.Timely (.work i a))
    (hw : (s.threads i).work a = some w) : (s.setThread i w).Paired := by
  have hkept := (work_step hw).kept (hs.ok i)
  have hstart : w.startResult = some true → (s.threads i).startResult = some true ∨
      i = s.registry.created.length ∧ s.wait.isStarting = true := by
    intro hst
    rcases work_startResult hw with heq | ⟨ok, rfl, heq⟩
    · exact .inl (heq ▸ hst)
    · obtain rfl : ok = true := Option.some.inj (heq.symm.trans hst)
      exact .inr hok
  refine h.threads hs rfl (fun j hj => ?_) fun request b hr => ?_
  · by_cases hji : j = i
    · subst hji
      rw [setThread_self]
      refine ⟨fun hst => ?_, hkept.exited, fun _ => hkept.scheduled⟩
      exact (hstart hst).resolve_right fun h => Nat.ne_of_lt hj h.1
    · rw [setThread_ne hji]
      exact ⟨fun h => h, fun h => h, fun _ => rfl⟩
  · have hr : s.wait = .rollback request b := hr
    by_cases hni : s.registry.created.length = i
    · rw [hni, setThread_self]
      intro hst
      rcases hstart hst with hst | ⟨-, hw⟩
      · exact h.rollback request b hr (hni ▸ hst)
      · rw [hr] at hw
        cases hw
    · rw [setThread_ne hni]
      exact h.rollback request b hr

/-- The end of a creation that has failed, or never got as far as a thread. -/
theorem Paired.created (h : s.Paired) {r : Registry}
    (hh : ∀ i, i ∈ r.hosted ↔ i ∈ s.registry.hosted ∨
      i = s.registry.created.length ∧ (s.threads i).startResult = some true)
    (hc : r.created.length ≤ s.registry.created.length + 1)
    (hd : ∀ i ∈ r.destroyed, i ∈ s.registry.destroyed ∨
      i = s.registry.created.length ∧ (s.threads i).startResult ≠ some true) :
    Paired { s with wait := .idle, registry := r } := by
  refine ⟨fun i hi hnot hst => ?_, fun i hi hst => ?_, nofun⟩
  · by_cases hin : i = s.registry.created.length
    · exact absurd ((hh i).2 (.inr ⟨hin, hst⟩)) hnot
    · refine h.gone i ?_ (fun hmem => hnot ((hh i).2 (.inl hmem))) hst
      have hi : i < r.created.length := hi
      omega
  · rcases hd i hi with hi | ⟨-, hne⟩
    · exact h.destroyed i hi hst
    · exact absurd hst hne

/-- The end of a removal. -/
theorem Paired.removed (h : s.Paired) (hs : s.Inv) {key : ExternalId} (hw : s.wait = .joining key i)
    (answer : Except Utf8String Unit)
    (hx : Lifecycle.isOk answer = true → (s.threads i).backend.workerExited = true) :
    Paired { s with
      wait := .idle, registry := s.registry.stopAndDestroyInstance key { stop := answer } } := by
  have hwait := hs.wait
  rw [hw] at hwait
  obtain ⟨-, hh, hc, hd⟩ := stopAndDestroyInstance_hosted hs.valid hwait.1 answer
  refine ⟨fun j hj hnot hst => ?_, fun j hj hst => ?_, nofun⟩
  · by_cases hji : j = i
    · rw [hji]
      exact hwait.2
    · refine h.gone j ?_ (fun hmem => hnot ((hh j).2 ⟨hmem, hji⟩)) hst
      rw [← hc]
      exact hj
  · have hj : j ∈ s.registry.destroyed ++ if Lifecycle.isOk answer then [i] else [] := hd ▸ hj
    rcases List.mem_append.1 hj with hj | hj
    · exact h.destroyed j hj hst
    · split at hj
      · next hok =>
        rw [List.mem_singleton.1 hj]
        exact hx hok
      · cases hj

theorem Paired.execute (h : s.Paired) (hs : s.Inv) (hidle : s.wait = .idle)
    (hi : i ∈ s.registry.hosted) (task : Task) : (s.execute i task).Paired := by
  have heq := (serving_of_idle hs hidle hi).execute_eq task
  refine h.setThread hs s.wait (.inl hi) ?_ (fun _ => ?_) ?_
  · rw [heq]
  · rw [heq]
  · rw [hidle]
    exact nofun

theorem Paired.executeOnRuntime (h : s.Paired) (hs : s.Inv) (hidle : s.wait = .idle)
    (key : ExternalId) (task : Task) : (s.executeOnRuntime key task).Paired := by
  unfold TimedHost.executeOnRuntime
  split
  · exact h
  · next i hi => exact h.execute hs hidle (findInstance_hosted hs hi) task

theorem Paired.executeOnAllRuntimes (h : s.Paired) (hs : s.Inv) (hidle : s.wait = .idle) {task : Task}
    (ht : task.IsOther) : (s.executeOnAllRuntimes task).Paired := by
  have hloop : (s.executeOnAllRuntimes task).Inv ∧ (s.executeOnAllRuntimes task).Paired :=
    executeOnAllRuntimes_induct (P := fun s => s.Inv ∧ s.Paired) ⟨hs, h⟩
      fun _ _ ⟨hs, h⟩ hwait hi =>
        have hidle := hwait.trans hidle
        ⟨hs.execute hidle hi ht, h.execute hs hidle hi task⟩
  exact hloop.2

theorem Paired.configChanged (h : s.Paired) (hs : s.Inv) (hidle : s.wait = .idle)
    (request : ConfigChangedRequest) (a : CreateAnswers) : (s.configChanged request a).Paired := by
  have hnew : s.threads s.registry.created.length = {} :=
    hs.fresh _ (Nat.le_refl _) (by rw [hidle]; exact nofun)
  unfold TimedHost.configChanged
  split_ifs with hfound hstarts
  · exact h.executeOnRuntime hs hidle _ _
  · refine h.setThread hs _ (.inr rfl) ?_ (fun hi => absurd hi (new_not_hosted hs)) nofun
    rw [hnew]
    rfl
  · have hf : s.registry.findRuntime request.adapter.externalId = none := by
      simpa using hfound
    have hnot : (s.threads s.registry.created.length).startResult ≠ some true := by
      rw [hnew]
      exact nofun
    obtain ⟨hh, hc⟩ := ensureInstance_failed (a := a) hf (Bool.eq_false_iff.2 hstarts)
    rw [show ({ s with registry := s.registry.ensureInstance request a } : TimedHost) =
      { s with wait := .idle, registry := s.registry.ensureInstance request a } by rw [← hidle]]
    refine h.created (fun i => ?_) ?_ fun i hi => ?_
    · rw [hh]
      constructor
      · exact .inl
      · rintro (hi | ⟨rfl, hst⟩)
        · exact hi
        · exact absurd hst hnot
    · rcases hc with ⟨hc, -⟩ | ⟨hc, -⟩
      · rw [hc]
        exact Nat.le_succ _
      · rw [hc, List.length_append]
        exact Nat.le_refl _
    · rcases hc with ⟨-, hd⟩ | ⟨-, hd⟩
      · exact .inl (hd ▸ hi)
      · rw [hd] at hi
        rcases List.mem_append.1 hi with hi | hi
        · exact .inl hi
        · obtain rfl := List.mem_singleton.1 hi
          exact .inr ⟨rfl, hnot⟩

theorem Paired.removeInstance (h : s.Paired) (hs : s.Inv) (hidle : s.wait = .idle)
    (key : ExternalId) : (s.removeInstance key).Paired := by
  unfold TimedHost.removeInstance
  cases hi : s.findInstance key with
  | none => exact h
  | some i =>
    have hmem := findInstance_hosted hs hi
    have heq := (serving_of_idle hs hidle hmem).execute_eq .stop
    dsimp only
    rw [heq]
    exact h.setThread hs _ (.inl hmem) rfl (fun _ => rfl) nofun

/-- The registration of a new instance. -/
theorem Paired.registered (h : s.Paired) (hs : s.Inv) {request : ConfigChangedRequest}
    {a : CreateAnswers} (hstarts : startsBackend s.registry request a = true)
    (he : a.execute = .ok ()) (hst : a.started = some true)
    (hd : (s.threads s.registry.created.length).startDone = some true) :
    Paired { s with wait := .idle, registry := s.registry.ensureInstance request a } := by
  obtain ⟨hh, hc, hdes⟩ := ensureInstance_started hs.valid hstarts he hst
  have htrue := (hs.ok _).done true hd
  refine h.created (fun i => ?_) ?_ fun i hi => .inl (hdes ▸ hi)
  · rw [hh, List.mem_append, List.mem_singleton]
    constructor
    · rintro (hi | rfl)
      · exact .inl hi
      · exact .inr ⟨rfl, htrue⟩
    · rintro (hi | ⟨rfl, -⟩)
      · exact .inl hi
      · exact .inr rfl
  · rw [hc, List.length_append]
    exact Nat.le_refl _

/-- The end of a rollback. -/
theorem Paired.rolledBack (h : s.Paired) {request : ConfigChangedRequest}
    {a : CreateAnswers} (hstarts : startsBackend s.registry request a = true)
    (he : a.execute = .ok ()) (hst : a.started ≠ some true)
    (hnot : (s.threads s.registry.created.length).startResult ≠ some true) :
    Paired { s with wait := .idle, registry := s.registry.ensureInstance request a } := by
  obtain ⟨hh, hc, hdes⟩ := ensureInstance_rollback hstarts he hst
  refine h.created (fun i => ?_) ?_ fun i hi => ?_
  · rw [hh]
    constructor
    · exact .inl
    · rintro (hi | ⟨rfl, htrue⟩)
      · exact hi
      · exact absurd htrue hnot
  · rw [hc, List.length_append]
    exact Nat.le_refl _
  · rw [hdes] at hi
    rcases List.mem_append.1 hi with hi | hi
    · exact .inl hi
    · obtain rfl := List.mem_singleton.1 hi
      exact .inr ⟨rfl, hnot⟩

/-- The host asks for the stop of a backend that it waits for. -/
theorem Paired.requestStop (h : s.Paired) (hs : s.Inv) {wait : Wait}
    (hi : i ∈ s.registry.hosted ∨ i = s.registry.created.length)
    (hrollback : ∀ request a, wait = .rollback request a →
      (s.threads s.registry.created.length).startResult ≠ some true) :
    Paired { s.requestStop i with wait := wait } :=
  h.setThread hs _ hi rfl (fun _ => rfl) hrollback

theorem Paired.stopped (h : s.Paired) (hs : s.Inv)
    (hi : i ∈ s.registry.hosted ∨ i = s.registry.created.length) : (s.stopped i).Paired :=
  h.setThread hs s.wait hi rfl (fun _ => rfl) h.rollback

theorem Paired.waitStep (h : s.Paired) (hs : s.Inv)
    (hok : ∀ request a, s.wait = .starting request a →
      (s.threads s.registry.created.length).startDone = none →
      (s.threads s.registry.created.length).startResult ≠ some true)
    (ht : WaitStep s t) : t.Paired := by
  cases ht with
  | @registered request a hw hd =>
    obtain ⟨h1, h2, -⟩ := hs.at_wait hw
    exact (h.registered hs (a := { a with started := some true }) h1 h2 rfl hd).executeOnRuntime
      (hs.registered hw hd) rfl _ _
  | @rollback request a started hw hd hne =>
    refine h.requestStop hs (.inr rfl) fun _ _ _ => ?_
    cases started with
    | none => exact hok request a hw hd
    | some ok =>
      rw [(hs.ok _).done ok hd]
      exact hne
  | @rolledBack request a hw hx =>
    obtain ⟨h1, h2, h3⟩ := hs.at_wait hw
    have hnot := h.rollback request a hw
    have hsame : ((s.stopped s.registry.created.length).threads s.registry.created.length).startResult =
        (s.threads s.registry.created.length).startResult := by
      rw [TimedHost.stopped, setThread_self]
    exact (h.stopped hs (.inr rfl)).rolledBack (a := { a with stop := .ok () }) h1 h2 h3
      fun hst => hnot (hsame.symm.trans hst)
  | @notRolledBack request a hw =>
    obtain ⟨h1, h2, h3⟩ := hs.at_wait hw
    exact h.rolledBack (a := { a with stop := stopTimedOut }) h1 h2 h3 (h.rollback request a hw)
  | join hw =>
    refine h.requestStop hs (.inl (findInstance_hosted hs (hs.at_wait hw).1)) fun _ _ hrollback => ?_
    cases hrollback
  | @removed key i hw hx =>
    have hmem := findInstance_hosted hs (hs.at_wait hw).1
    refine (h.stopped hs (.inl hmem)).removed (hs.stopped_leaving hw hx) hw _ fun _ => ?_
    rw [TimedHost.stopped, setThread_self]
    exact hx
  | leaked hw => exact h.removed hs hw stopTimedOut fun h => by cases h

/-- **One step keeps the pairing**, if no `start()` returns true too late. -/
theorem step_paired (h : s.Paired) (hs : s.Inv) {a : HookAct} (hok : s.Timely a)
    (ht : s.step a = some t) : t.Paired := by
  cases a with
  | configChanged request a =>
    obtain ⟨hc, ht⟩ := Option.ite_none_right_eq_some.1 ht
    cases ht
    exact h.configChanged hs (isIdle_iff.1 (Bool.and_eq_true_iff.1 hc).1).1 request a
  | instanceRemoved key =>
    obtain ⟨hc, ht⟩ := Option.ite_none_right_eq_some.1 ht
    cases ht
    exact h.removeInstance hs (isIdle_iff.1 (Bool.and_eq_true_iff.1 hc).1).1 key
  | stop keys =>
    obtain ⟨-, ht⟩ := Option.ite_none_right_eq_some.1 ht
    cases ht
    exact ⟨h.gone, h.destroyed, h.rollback⟩
  | next =>
    simp only [step] at ht
    split at ht
    · next key rest hw _ =>
      cases ht
      exact Paired.removeInstance (s := { s with teardown := rest })
        ⟨h.gone, h.destroyed, h.rollback⟩ (hs.teardown rest) hw key
    · cases ht
  | dispatch key task =>
    obtain ⟨hc, ht⟩ := Option.ite_none_right_eq_some.1 ht
    cases ht
    simp only [Bool.and_eq_true, decide_eq_true_eq] at hc
    exact h.executeOnRuntime hs (isIdle_iff.1 hc.1.1).1 key task
  | dispatchAll task =>
    obtain ⟨hc, ht⟩ := Option.ite_none_right_eq_some.1 ht
    cases ht
    simp only [Bool.and_eq_true, decide_eq_true_eq] at hc
    exact h.executeOnAllRuntimes hs (isIdle_iff.1 hc.1.1).1 ⟨hc.1.2, hc.2⟩
  | waited =>
    have hw : s.waited = some t := ht
    refine h.waitStep hs (fun request a hstarting hd => ?_) (waited_cases hw)
    simp [TimedHost.waited, hstarting, hd] at hw
  | timeout => exact h.waitStep hs (fun request a hw _ => hok (by rw [hw]; rfl)) (timeout_cases ht)
  | work i a =>
    obtain ⟨-, ht⟩ := Option.ite_none_left_eq_some.1 ht
    obtain ⟨w, hw, rfl⟩ := Option.map_eq_some_iff.1 ht
    exact h.work hs hok hw

end TimedHost

namespace InstanceThread

/-- A thread that has come to its end has called everything that was scheduled, `stop()` last. -/
theorem Ok.count_stop {w : InstanceThread} (h : w.Ok) (hs : w.startResult = some true)
    (hl : w.Leaving) (hx : w.backend.workerExited = true) : w.executed.count .stop = 1 := by
  have hnot : w.reported = false := by
    cases hr : w.reported with
    | false => rfl
    | true => cases hs.symm.trans (h.reported hr).startResult
  have hp := h.drained.pending hx
  simp only [Backend.pending, List.append_eq_nil_iff] at hp
  have hline := h.line hnot
  rw [hp.2, List.append_nil] at hline
  obtain ⟨l, hl, hsch⟩ := hl
  have hzero : l.count .stop = 0 := List.count_eq_zero.2 fun hmem => (hl _ hmem).2 rfl
  rw [hline, hsch, List.count_cons, List.count_append, hzero]
  rfl

end InstanceThread

namespace TimedHost

open InstanceThread

variable {s : TimedHost}

/-- **Every started instance is stopped before it is destroyed**, in every run in which the host waits
for each `start()` that returns true: every instance's hooks are in order, and those of a destroyed
instance whose `start()` returned true have one `stop()` among them. -/
theorem run_paired {as : List HookAct} (hok : machine.Along Timely {} as)
    (h : machine.run {} as = some s) (i : Nat) :
    (s.threads i).InOrder ∧ (i ∈ s.registry.destroyed → (s.threads i).startResult = some true →
      (s.threads i).executed.count .stop = 1) := by
  obtain ⟨hs, hp⟩ := Lts.Machine.along_inv (I := fun s => s.Inv ∧ s.Paired)
    (fun _ _ _ h hok ht => ⟨step_inv h.1 ht, step_paired h.2 h.1 hok ht⟩) ⟨.init, .init⟩ hok h
  refine ⟨(hs.ok i).inOrder (hs.script i), fun hi hst => ?_⟩
  refine (hs.ok i).count_stop hst (hp.gone i (hs.valid.lt_created (.inr hi)) ?_ hst)
    (hp.destroyed i hi hst)
  exact fun hmem => hs.valid.hosted_not_destroyed hmem hi

/-- An instance that is created, told of its configuration and removed. -/
theorem run_paired_removed :
    let request : ConfigChangedRequest := { adapter := { externalId := [1] } }
    let as : List HookAct := [.configChanged request {}, .work 0 .take, .work 0 (.startReturns true),
      .work 0 .startDone, .waited, .instanceRemoved [1], .work 0 .take, .timeout, .work 0 .returns,
      .work 0 .take, .work 0 .returns, .work 0 .exit, .waited]
    ∃ s, machine.run {} as = some s ∧ s.registry.destroyed = [0] ∧
      (s.threads 0).startResult = some true ∧ (s.threads 0).executed.count .stop = 1 := by
  intro request as
  have hrun : (machine.run {} as).map (fun s => (s.registry.destroyed, (s.threads 0).startResult)) =
      some ([0], some true) := rfl
  obtain ⟨s, hs, heq⟩ := Option.map_eq_some_iff.1 hrun
  simp only [Prod.mk.injEq] at heq
  have hok : machine.Along Timely {} as := by decide +kernel
  exact ⟨s, hs, heq.1, heq.2, (run_paired hok hs 0).2 (by simp [heq.1]) heq.2⟩

/-- A `start()` that returns true when the host does not wait for it any more, but for the stop of its
backend, in vain. -/
theorem run_unpaired :
    let as : List HookAct := [.configChanged { adapter := { externalId := [1] } } {}, .work 0 .take,
      .timeout, .work 0 (.startReturns true), .timeout]
    ∃ s, machine.run {} as = some s ∧ (s.threads 0).startResult = some true ∧
      s.registry.destroyed = [0] ∧ (s.threads 0).executed = [.start] := by
  intro as
  have hrun : (machine.run {} as).map (fun s =>
      ((s.threads 0).startResult, s.registry.destroyed, (s.threads 0).executed)) =
        some (some true, [0], [.start]) := rfl
  obtain ⟨s, hs, heq⟩ := Option.map_eq_some_iff.1 hrun
  simp only [Prod.mk.injEq] at heq
  exact ⟨s, hs, heq⟩

end TimedHost

end Phi.Host
