import PhiSidecar.Host.InstanceThread

/-!
# The order of an instance's hooks

`Inv` ties every thread to what the host knows about its instance: in the registry, about to be, or
about to go.

* `step_inv`: every step keeps it; `WaitStep` says how a wait can end.
* `run_inOrder`: **in every run the hooks of every instance begin with `start()`, follow the order in
  which the host scheduled them, and end with `stop()` if it is called**.
-/

set_option autoImplicit false

namespace Phi.Host

open Phi.V1 Phi.Wire Phi.Dispatcher

/-! ## What a wait does to the registry -/

namespace TimedHost

open InstanceThread

variable {r : Registry} {request : ConfigChangedRequest} {a : CreateAnswers}

theorem startsBackend_iff : startsBackend r request a = true ↔
    request.adapter.externalId ≠ [] ∧ r.findRuntime request.adapter.externalId = none ∧
      ¬(0 < a.maxInstances.toInt ∧ a.maxInstances.toInt ≤ r.instances.length) ∧
      a.instanceCreated = true ∧ a.executionCreated = true ∧ a.start = .ok () := by
  have hok : Lifecycle.isOk a.start = true ↔ a.start = .ok () := by
    cases a.start <;> simp [Lifecycle.isOk]
  simp only [startsBackend, Bool.and_eq_true, decide_eq_true_eq, hok, and_assoc, Option.isNone_iff_eq_none,
    Bool.not_eq_true', Bool.and_eq_false_iff, decide_eq_false_iff_not, not_and_or]

/-- A creation that gets as far as the start task. -/
theorem ensureInstance_eq (h : startsBackend r request a = true) :
    r.ensureInstance request a = ({ r with created := r.created ++ [request.adapter.externalId] }
      |>.createRuntime request.adapter.externalId a r.created.length).1 := by
  obtain ⟨h1, h2, h3, h4, -, -⟩ := startsBackend_iff.1 h
  simp only [Registry.ensureInstance, Registry.createInstanceRuntime, if_neg h1, h2, Option.isSome_none,
    Bool.false_eq_true, if_false, if_neg h3, h4, Bool.not_true]

theorem ensureInstance_started (hr : r.Valid 0) (h : startsBackend r request a = true)
    (he : a.execute = .ok ()) (hs : a.started = some true) :
    (r.ensureInstance request a).hosted = r.hosted ++ [r.created.length] ∧
      (r.ensureInstance request a).created = r.created ++ [request.adapter.externalId] ∧
      (r.ensureInstance request a).destroyed = r.destroyed := by
  obtain ⟨-, h2, -, -, h5, h6⟩ := startsBackend_iff.1 h
  have hnone : r.instances.lookup request.adapter.externalId = none := hr.lookup_none (by simp [h2])
  rw [ensureInstance_eq h]
  simp [Registry.createRuntime, h5, h6, he, hs, hnone, Registry.hosted]

theorem ensureInstance_rollback (h : startsBackend r request a = true)
    (he : a.execute = .ok ()) (hs : a.started ≠ some true) :
    (r.ensureInstance request a).hosted = r.hosted ∧
      (r.ensureInstance request a).created = r.created ++ [request.adapter.externalId] ∧
      (r.ensureInstance request a).destroyed = r.destroyed ++ [r.created.length] := by
  obtain ⟨-, -, -, -, h5, h6⟩ := startsBackend_iff.1 h
  rw [ensureInstance_eq h]
  have hcases : a.started = none ∨ a.started = some false := by
    cases hst : a.started with
    | none => exact .inl rfl
    | some ok =>
      cases ok with
      | false => exact .inr rfl
      | true => exact absurd hst hs
  rcases hcases with hs | hs
  all_goals
    simp [Registry.createRuntime, h5, h6, he, hs, Registry.hosted, Registry.rollback,
      Registry.stopBackend, Registry.destroyInstance]

/-- Any other creation. -/
theorem ensureInstance_failed (hf : r.findRuntime request.adapter.externalId = none)
    (h : startsBackend r request a = false) :
    (r.ensureInstance request a).hosted = r.hosted ∧
      ((r.ensureInstance request a).created = r.created ∧
          (r.ensureInstance request a).destroyed = r.destroyed ∨
        (r.ensureInstance request a).created = r.created ++ [request.adapter.externalId] ∧
          (r.ensureInstance request a).destroyed = r.destroyed ++ [r.created.length]) := by
  unfold Registry.ensureInstance
  simp only [hf, Option.isSome_none, Bool.false_eq_true, if_false]
  by_cases h1 : request.adapter.externalId = []
  · rw [if_pos h1]
    exact ⟨rfl, .inl ⟨rfl, rfl⟩⟩
  · rw [if_neg h1]
    simp only [Registry.createInstanceRuntime, if_neg h1, hf, Option.isSome_none, Bool.false_eq_true,
      if_false]
    by_cases h3 : 0 < a.maxInstances.toInt ∧ a.maxInstances.toInt ≤ r.instances.length
    · rw [if_pos h3]
      exact ⟨rfl, .inl ⟨rfl, rfl⟩⟩
    · rw [if_neg h3]
      cases h4 : a.instanceCreated with
      | false => exact ⟨rfl, .inl ⟨rfl, rfl⟩⟩
      | true =>
        simp only [Bool.not_true, Bool.false_eq_true, if_false]
        cases h5 : a.executionCreated with
        | false => simp [Registry.createRuntime, h5, Registry.destroyInstance, Registry.hosted]
        | true =>
          cases h6 : a.start with
          | error e => simp [Registry.createRuntime, h5, h6, Registry.destroyInstance, Registry.hosted]
          | ok u => exact absurd (startsBackend_iff.2 ⟨h1, hf, h3, h4, h5, h6⟩) (by simp [h])

/-- The removal of an instance. -/
theorem stopAndDestroyInstance_hosted (hr : r.Valid 0) {key : ExternalId} {i : Nat}
    (hi : (r.findRuntime key).bind (·.instance?) = some i) (answer : Except Utf8String Unit) :
    i ∈ r.hosted ∧
      (∀ j, j ∈ (r.stopAndDestroyInstance key { stop := answer }).hosted ↔ j ∈ r.hosted ∧ j ≠ i) ∧
      (r.stopAndDestroyInstance key { stop := answer }).created = r.created ∧
      (r.stopAndDestroyInstance key { stop := answer }).destroyed =
        r.destroyed ++ if Lifecycle.isOk answer then [i] else [] := by
  cases hl : r.instances.lookup key with
  | none => simp [Registry.findRuntime, hl] at hi
  | some runtime =>
    obtain ⟨j, e, hown⟩ := hr.owns hl
    obtain rfl := hown.runtime
    have hij : j = i := by simpa [Registry.findRuntime, hl] using hi
    subst hij
    have hinst : (r.stopAndDestroyInstance key { stop := answer }).instances =
        r.instances.filter (·.1 ≠ key) := by
      cases answer <;> simp [Registry.stopAndDestroyInstance, hl, Registry.stopBackend,
        Registry.destroyInstance, Lifecycle.isOk]
    have hperm := hr.hosted_remove hl hown hinst
    have hnodup := hperm.nodup_iff.1 hr.hosted_nodup
    refine ⟨hperm.mem_iff.2 (.head _), fun k => ?_, ?_, ?_⟩
    · rw [hperm.mem_iff, List.mem_cons]
      constructor
      · intro hk
        refine ⟨.inr hk, ?_⟩
        rintro rfl
        exact (List.nodup_cons.1 hnodup).1 hk
      · rintro ⟨hk | hk, hne⟩
        · exact absurd hk hne
        · exact hk
    · cases answer <;> simp [Registry.stopAndDestroyInstance, hl, Registry.stopBackend,
        Registry.destroyInstance, Lifecycle.isOk]
    · cases answer <;> simp [Registry.stopAndDestroyInstance, hl, Registry.stopBackend,
        Registry.destroyInstance, Lifecycle.isOk]

/-! ## The invariant -/

/-- What the host thread can rely on while it waits. -/
def WaitOk (s : TimedHost) : Wait → Prop
  | .idle => True
  | .starting request a => startsBackend s.registry request a = true ∧ a.execute = .ok () ∧
      (s.threads s.registry.created.length).scheduled = [.start] ∧
      (s.threads s.registry.created.length).backend.started = true ∧
      (s.threads s.registry.created.length).backend.stopRequested = false
  | .rollback request a =>
    startsBackend s.registry request a = true ∧ a.execute = .ok () ∧ a.started ≠ some true
  | .stopping externalId i | .joining externalId i =>
    s.findInstance externalId = some i ∧ (s.threads i).Leaving

structure Inv (s : TimedHost) : Prop where
  valid : s.registry.Valid 0
  ok : ∀ i, (s.threads i).Ok
  script : ∀ i, Script (s.threads i).scheduled
  fresh : ∀ i, s.registry.created.length ≤ i →
    (s.wait.isNew = true → i ≠ s.registry.created.length) → s.threads i = {}
  hosted : ∀ i ∈ s.registry.hosted, s.wait.leaving ≠ some i → (s.threads i).Serving
  wait : s.WaitOk s.wait

variable {s t : TimedHost} {i : Nat} {w : InstanceThread}

theorem Inv.init : Inv {} where
  valid := .init
  ok _ := .init
  script _ := .none
  fresh _ _ _ := rfl
  hosted := by simp [Registry.hosted]
  wait := trivial

theorem forall_setThread {P : Nat → InstanceThread → Prop} (hw : P i w)
    (h : ∀ j, j ≠ i → P j (s.threads j)) (j : Nat) : P j ((s.setThread i w).threads j) :=
  (Function.forall_update_iff s.threads (p := P)).2 ⟨hw, h⟩ j

@[simp] theorem setThread_self (s : TimedHost) (i : Nat) (w : InstanceThread) :
    (s.setThread i w).threads i = w := Function.update_self ..

theorem setThread_ne {j : Nat} (h : j ≠ i) : (s.setThread i w).threads j = s.threads j :=
  Function.update_of_ne h ..

@[simp] theorem setThread_registry (s : TimedHost) (i : Nat) (w : InstanceThread) :
    (s.setThread i w).registry = s.registry := rfl

theorem findInstance_hosted (h : s.Inv) {key : ExternalId} (hi : s.findInstance key = some i) :
    i ∈ s.registry.hosted := (stopAndDestroyInstance_hosted h.valid hi (.ok ())).1

/-- The instance exists. -/
def Exists (s : TimedHost) (wait : Wait) (i : Nat) : Prop :=
  i < s.registry.created.length ∨ wait.isNew = true ∧ i = s.registry.created.length

theorem exists_hosted (h : s.Inv) (wait : Wait) (hi : i ∈ s.registry.hosted) : s.Exists wait i :=
  .inl (h.valid.lt_created (.inl hi))

/-- A step on one instance. -/
theorem Inv.setThread (h : s.Inv) (wait : Wait) (hexists : s.Exists wait i) (hok : w.Ok)
    (hscript : Script w.scheduled)
    (hserving : i ∈ s.registry.hosted → wait.leaving ≠ some i → w.Serving)
    (hnew : s.wait.isNew = true → wait.isNew = true)
    (hleaving : ∀ j, j ≠ i → s.wait.leaving = some j → wait.leaving = some j)
    (hwait : (s.setThread i w).WaitOk wait) : Inv { s.setThread i w with wait := wait } := by
  refine ⟨h.valid, forall_setThread hok fun j _ => h.ok j, ?_, ?_, ?_, hwait⟩
  · exact forall_setThread (P := fun _ w => Script w.scheduled) hscript fun j _ => h.script j
  · refine forall_setThread (P := fun j w => s.registry.created.length ≤ j →
      (wait.isNew = true → j ≠ s.registry.created.length) → w = {}) (fun hle hne => ?_) ?_
    · rcases hexists with hlt | ⟨hn, heq⟩
      · exact absurd hlt (Nat.not_lt.2 hle)
      · exact absurd heq (hne hn)
    · exact fun j _ hle hne => h.fresh j hle fun hn => hne (hnew hn)
  · refine forall_setThread (P := fun j w => j ∈ s.registry.hosted → wait.leaving ≠ some j → w.Serving)
      hserving fun j hj hmem hne => h.hosted j hmem fun hl => hne (hleaving j hj hl)

/-- The end of a wait, with what it does to the registry. -/
theorem Inv.settle (h : s.Inv) {r : Registry} (hvalid : r.Valid 0)
    (hcreated : s.registry.created.length ≤ r.created.length)
    (hnew : s.wait.isNew = true → s.registry.created.length < r.created.length)
    (hhosted : ∀ i ∈ r.hosted, (s.threads i).Serving) :
    Inv { s with wait := .idle, registry := r } := by
  refine ⟨hvalid, h.ok, h.script, fun j hle _ => ?_, fun j hj _ => hhosted j hj, trivial⟩
  refine h.fresh j (Nat.le_trans hcreated hle) fun hn heq => ?_
  exact absurd (hnew hn) (Nat.not_lt.2 (heq ▸ hle))

/-- A step of the thread of an instance. -/
theorem Inv.work (h : s.Inv) {a : Work} (hw : (s.threads i).work a = some w) : (s.setThread i w).Inv := by
  have hstep := work_step hw
  have hkept := hstep.kept (h.ok i)
  have hexists : s.Exists s.wait i := by
    -- an instance that does not exist has no thread to take steps
    by_contra hnot
    have hle : s.registry.created.length ≤ i := Nat.not_lt.1 fun hlt => hnot (.inl hlt)
    rw [h.fresh i hle fun hn heq => hnot (.inr ⟨hn, heq⟩)] at hw
    cases a <;> cases hw
  refine h.setThread s.wait hexists (hstep.ok (h.ok i)) ?_ ?_ (fun h => h) (fun _ _ h => h) ?_
  · rw [hkept.scheduled]
    exact h.script i
  · exact fun hi hl => hkept.serving (h.hosted i hi hl)
  · have hwait := h.wait
    cases hs : s.wait with
    | idle => trivial
    | starting request a =>
      rw [hs] at hwait
      obtain ⟨h1, h2, h3, h4, h5⟩ := hwait
      refine ⟨h1, h2, ?_⟩
      rw [setThread_registry]
      by_cases hi : s.registry.created.length = i
      · rw [hi, setThread_self, hkept.scheduled, hkept.started, hkept.stopRequested]
        exact hi ▸ ⟨h3, h4, h5⟩
      · rw [setThread_ne hi]
        exact ⟨h3, h4, h5⟩
    | rollback request a => rw [hs] at hwait; exact hwait
    | stopping key k | joining key k =>
      rw [hs] at hwait
      refine ⟨hwait.1, ?_⟩
      by_cases hi : k = i
      · subst hi
        rw [setThread_self]
        obtain ⟨l, hl, hsch⟩ := hwait.2
        exact ⟨l, hl, hkept.scheduled.trans hsch⟩
      · rw [setThread_ne hi]
        exact hwait.2

/-! ## The host thread -/

theorem serving_of_idle (h : s.Inv) (hidle : s.wait = .idle) (hi : i ∈ s.registry.hosted) :
    (s.threads i).Serving := h.hosted i hi (by simp [hidle, Wait.leaving])

/-- Another hook for an instance in the registry. -/
theorem Inv.execute (h : s.Inv) (hidle : s.wait = .idle) (hi : i ∈ s.registry.hosted) {task : Task}
    (ht : task.IsOther) : (s.execute i task).Inv := by
  have hserving := serving_of_idle h hidle hi
  refine h.setThread s.wait (exists_hosted h s.wait hi) ((h.ok i).execute hserving task)
    (hserving.execute ht).script (fun _ _ => hserving.execute ht) (fun h => h) (fun _ _ h => h) ?_
  rw [hidle]
  trivial

theorem Inv.executeOnRuntime (h : s.Inv) (hidle : s.wait = .idle) (key : ExternalId) {task : Task}
    (ht : task.IsOther) : (s.executeOnRuntime key task).Inv := by
  unfold TimedHost.executeOnRuntime
  split
  · exact h
  · next i hi => exact h.execute hidle (findInstance_hosted h hi) ht

/-- Whatever each `execute` of the host's loop over its runtimes keeps, the loop keeps. -/
theorem executeOnAllRuntimes_induct {P : TimedHost → Prop} {task : Task} (h : P s)
    (hstep : ∀ t i, P t → t.wait = s.wait → i ∈ t.registry.hosted → P (t.execute i task)) :
    P (s.executeOnAllRuntimes task) := by
  have hfold := List.foldlRecOn (motive := fun t => P t ∧ t.wait = s.wait ∧ t.registry = s.registry)
    s.registry.hosted (fun t i => t.execute i task) ⟨h, rfl, rfl⟩
    fun t ⟨ht, hwait, hreg⟩ i hi => ⟨hstep t i ht hwait (hreg ▸ hi), hwait, hreg⟩
  exact hfold.1

theorem Inv.executeOnAllRuntimes (h : s.Inv) (hidle : s.wait = .idle) {task : Task}
    (ht : task.IsOther) : (s.executeOnAllRuntimes task).Inv :=
  executeOnAllRuntimes_induct h fun _ _ h hwait hi => h.execute (hwait.trans hidle) hi ht

theorem isOther_hook (call : HandlerCall) : (Task.hook call).IsOther := ⟨nofun, nofun⟩

theorem ensureInstance_valid (h : s.Inv) (request : ConfigChangedRequest) (a : CreateAnswers) :
    (s.registry.ensureInstance request a).Valid 0 :=
  (Registry.step_valid h.valid (fun h => absurd h (by decide)) (rfl :
    s.registry.step (.configChanged request a (.ok ())) = some (s.registry.ensureInstance request a)))

theorem Inv.configChanged (h : s.Inv) (hidle : s.wait = .idle) (request : ConfigChangedRequest)
    (a : CreateAnswers) : (s.configChanged request a).Inv := by
  have hnone : ∀ {p : Bool}, ¬p = true → p = false := fun h => Bool.eq_false_iff.2 h
  unfold TimedHost.configChanged
  split_ifs with hfound hstarts
  · exact h.executeOnRuntime hidle _ (isOther_hook _)
  · refine h.setThread _ (.inr ⟨rfl, rfl⟩) .starting ?_ ?_ (fun _ => rfl) ?_ ?_
    · exact .hosted (by simp)
    · exact fun hi => absurd (h.valid.lt_created (.inl hi)) (Nat.lt_irrefl _)
    · rw [hidle]
      exact nofun
    · refine ⟨hstarts, rfl, ?_⟩
      rw [setThread_registry, setThread_self]
      exact ⟨rfl, rfl, rfl⟩
  · have hf : s.registry.findRuntime request.adapter.externalId = none := by
      simpa using hfound
    obtain ⟨hh, hc⟩ := ensureInstance_failed (a := a) hf (hnone hstarts)
    rw [show ({ s with registry := s.registry.ensureInstance request a } : TimedHost) =
      { s with wait := .idle, registry := s.registry.ensureInstance request a } by rw [← hidle]]
    refine h.settle (ensureInstance_valid h request a) ?_ (by rw [hidle]; exact nofun) ?_
    · rcases hc with ⟨hc, -⟩ | ⟨hc, -⟩
      · exact Nat.le_of_eq (congrArg List.length hc).symm
      · rw [hc, List.length_append]
        exact Nat.le_add_right _ _
    · rw [hh]
      exact fun i hi => serving_of_idle h hidle hi

theorem Inv.removeInstance (h : s.Inv) (hidle : s.wait = .idle) (key : ExternalId) :
    (s.removeInstance key).Inv := by
  unfold TimedHost.removeInstance
  cases hi : s.findInstance key with
  | none => exact h
  | some i =>
    have hmem := findInstance_hosted h hi
    have hserving := serving_of_idle h hidle hmem
    have hleaving := hserving.execute_stop
    have hok := (h.ok i).execute hserving .stop
    have heq := hserving.execute_eq .stop
    dsimp only
    rw [heq] at hleaving hok ⊢
    refine h.setThread _ (exists_hosted h _ hmem) hok hleaving.script (fun _ hne => absurd rfl hne) ?_ ?_ ?_
    · rw [hidle]
      exact nofun
    · rw [hidle]
      exact nofun
    · refine ⟨hi, ?_⟩
      rw [setThread_self]
      exact hleaving

theorem new_not_hosted (h : s.Inv) : s.registry.created.length ∉ s.registry.hosted :=
  fun hi => Nat.lt_irrefl _ (h.valid.lt_created (.inl hi))

/-- The start task has failed, or did not come to its end in time. -/
theorem Inv.rollback (h : s.Inv) {request : ConfigChangedRequest} {a : CreateAnswers}
    (hw : s.wait = .starting request a) {started : Option Bool} (hs : started ≠ some true) :
    Inv { s.requestStop s.registry.created.length with
      wait := .rollback request { a with started := started } } := by
  have hwait := h.wait
  rw [hw] at hwait
  refine h.setThread _ (.inr ⟨rfl, rfl⟩) (h.ok _).requestStop (h.script _) ?_ (fun _ => rfl) ?_
    ⟨hwait.1, hwait.2.1, hs⟩
  · exact fun hi => absurd hi (new_not_hosted h)
  · rw [hw]
    exact nofun

/-- The stop task has come to its end, or the time for it. -/
theorem Inv.join (h : s.Inv) {key : ExternalId} (hw : s.wait = .stopping key i) :
    Inv { s.requestStop i with wait := .joining key i } := by
  have hwait := h.wait
  rw [hw] at hwait
  have hmem := findInstance_hosted h hwait.1
  refine h.setThread _ (exists_hosted h _ hmem) (h.ok i).requestStop (h.script i)
    (fun _ hne => absurd rfl hne) ?_ ?_ ⟨hwait.1, ?_⟩
  · rw [hw]
    exact nofun
  · rw [hw]
    exact fun _ _ h => h
  · rw [setThread_self]
    exact hwait.2

theorem Inv.stopped (h : s.Inv) (hexists : s.Exists s.wait i)
    (hx : (s.threads i).backend.workerExited = true)
    (hi : i ∈ s.registry.hosted → s.wait.leaving = some i)
    (hwait : (s.stopped i).WaitOk s.wait) : (s.stopped i).Inv :=
  h.setThread s.wait hexists ((h.ok i).stopped hx) (h.script i)
    (fun hmem hne => absurd (hi hmem) hne) (fun h => h) (fun _ _ h => h) hwait

/-- The end of a creation. -/
theorem Inv.created (h : s.Inv) {request : ConfigChangedRequest} {a : CreateAnswers}
    (hs : startsBackend s.registry request a = true) (he : a.execute = .ok ())
    (hl : s.wait.leaving = none)
    (hnew : a.started = some true → (s.threads s.registry.created.length).Serving) :
    Inv { s with wait := .idle, registry := s.registry.ensureInstance request a } := by
  have hlen : ∀ {l l' : List ExternalId} {k : ExternalId}, l' = l ++ [k] → l.length < l'.length := by
    intro l l' k h
    rw [h, List.length_append]
    exact Nat.lt_succ_self _
  have hserving : ∀ i ∈ s.registry.hosted, (s.threads i).Serving :=
    fun i hi => h.hosted i hi (by rw [hl]; exact nofun)
  by_cases hst : a.started = some true
  · obtain ⟨hh, hc, -⟩ := ensureInstance_started h.valid hs he hst
    refine h.settle (ensureInstance_valid h request a) (Nat.le_of_lt (hlen hc)) (fun _ => hlen hc) ?_
    rw [hh]
    exact List.forall_mem_append.2 ⟨hserving, by simpa using hnew hst⟩
  · obtain ⟨hh, hc, -⟩ := ensureInstance_rollback hs he hst
    refine h.settle (ensureInstance_valid h request a) (Nat.le_of_lt (hlen hc)) (fun _ => hlen hc) ?_
    rw [hh]
    exact hserving

/-- The end of a removal. -/
theorem Inv.removed (h : s.Inv) {key : ExternalId} (hw : s.wait = .joining key i)
    (answer : Except Utf8String Unit) :
    Inv { s with
      wait := .idle, registry := s.registry.stopAndDestroyInstance key { stop := answer } } := by
  have hwait := h.wait
  rw [hw] at hwait
  obtain ⟨-, hh, hc, -⟩ := stopAndDestroyInstance_hosted h.valid hwait.1 answer
  refine h.settle (Registry.stopAndDestroyInstance_valid h.valid key _)
    (Nat.le_of_eq (congrArg List.length hc).symm) ?_ ?_
  · rw [hw]
    exact nofun
  · intro j hj
    obtain ⟨hmem, hne⟩ := (hh j).1 hj
    refine h.hosted j hmem ?_
    rw [hw]
    exact fun heq => hne (Option.some.inj heq).symm

/-- How a wait can end: by what it waits for, or by a timeout. -/
inductive WaitStep (s : TimedHost) : TimedHost → Prop
  | registered {request : ConfigChangedRequest} {a : CreateAnswers} (hw : s.wait = .starting request a)
      (hd : (s.threads s.registry.created.length).startDone = some true) :
      WaitStep s ({ s with
        wait := .idle
        registry := s.registry.ensureInstance request { a with started := some true } }
          |>.executeOnRuntime request.adapter.externalId (.hook (.onConfigChanged request)))
  | rollback {request : ConfigChangedRequest} {a : CreateAnswers} (started : Option Bool)
      (hw : s.wait = .starting request a)
      (hs : (s.threads s.registry.created.length).startDone = started) (hne : started ≠ some true) :
      WaitStep s { s.requestStop s.registry.created.length with
        wait := .rollback request { a with started := started } }
  | rolledBack {request : ConfigChangedRequest} {a : CreateAnswers} (hw : s.wait = .rollback request a)
      (hx : (s.threads s.registry.created.length).backend.workerExited = true) :
      WaitStep s { s.stopped s.registry.created.length with
        wait := .idle, registry := s.registry.ensureInstance request { a with stop := .ok () } }
  | notRolledBack {request : ConfigChangedRequest} {a : CreateAnswers}
      (hw : s.wait = .rollback request a) :
      WaitStep s { s with
        wait := .idle, registry := s.registry.ensureInstance request { a with stop := stopTimedOut } }
  | join {key : ExternalId} {i : Nat} (hw : s.wait = .stopping key i) :
      WaitStep s { s.requestStop i with wait := .joining key i }
  | removed {key : ExternalId} {i : Nat} (hw : s.wait = .joining key i)
      (hx : (s.threads i).backend.workerExited = true) :
      WaitStep s { s.stopped i with
        wait := .idle, registry := s.registry.stopAndDestroyInstance key { stop := .ok () } }
  | leaked {key : ExternalId} {i : Nat} (hw : s.wait = .joining key i) :
      WaitStep s { s with
        wait := .idle, registry := s.registry.stopAndDestroyInstance key { stop := stopTimedOut } }

theorem waited_cases (ht : s.waited = some t) : WaitStep s t := by
  unfold TimedHost.waited at ht
  cases hw : s.wait with
  | idle =>
    rw [hw] at ht
    cases ht
  | starting request a =>
    rw [hw] at ht
    cases hd : (s.threads s.registry.created.length).startDone with
    | none => simp [hd] at ht
    | some ok =>
      cases ok with
      | true =>
        simp only [hd, Option.some.injEq] at ht
        exact ht ▸ .registered hw hd
      | false =>
        simp only [hd, Option.some.injEq] at ht
        exact ht ▸ .rollback (some false) hw hd (by simp)
  | rollback request a =>
    rw [hw] at ht
    dsimp only at ht
    split at ht
    · next hx =>
      cases ht
      exact .rolledBack hw hx
    · cases ht
  | stopping key i =>
    rw [hw] at ht
    dsimp only at ht
    split at ht
    · cases ht
      exact .join hw
    · cases ht
  | joining key i =>
    rw [hw] at ht
    dsimp only at ht
    split at ht
    · next hx =>
      cases ht
      exact .removed hw hx
    · cases ht

theorem timeout_cases (ht : s.timeout = some t) : WaitStep s t := by
  unfold TimedHost.timeout at ht
  cases hw : s.wait with
  | idle =>
    rw [hw] at ht
    cases ht
  | starting request a =>
    rw [hw] at ht
    dsimp only at ht
    split at ht
    · next hd =>
      cases ht
      exact .rollback none hw hd nofun
    · cases ht
  | rollback request a =>
    rw [hw] at ht
    dsimp only at ht
    split at ht
    · cases ht
    · cases ht
      exact .notRolledBack hw
  | stopping key i =>
    rw [hw] at ht
    dsimp only at ht
    split at ht
    · cases ht
    · cases ht
      exact .join hw
  | joining key i =>
    rw [hw] at ht
    dsimp only at ht
    split at ht
    · cases ht
    · cases ht
      exact .leaked hw

/-- What a host thread in a wait knows. -/
theorem Inv.at_wait (h : s.Inv) {wait : Wait} (hw : s.wait = wait) : s.WaitOk wait := hw ▸ h.wait

theorem Inv.stopped_new (h : s.Inv) {request : ConfigChangedRequest} {a : CreateAnswers}
    (hw : s.wait = .rollback request a)
    (hx : (s.threads s.registry.created.length).backend.workerExited = true) :
    (s.stopped s.registry.created.length).Inv := by
  refine h.stopped (.inr ⟨by rw [hw]; rfl, rfl⟩) hx (fun hi => absurd hi (new_not_hosted h)) ?_
  rw [hw]
  exact h.at_wait hw

theorem Inv.stopped_leaving (h : s.Inv) {key : ExternalId} (hw : s.wait = .joining key i)
    (hx : (s.threads i).backend.workerExited = true) : (s.stopped i).Inv := by
  obtain ⟨hfind, hleaving⟩ := h.at_wait hw
  refine h.stopped (exists_hosted h _ (findInstance_hosted h hfind)) hx (fun _ => by rw [hw]; rfl) ?_
  rw [hw]
  refine ⟨hfind, ?_⟩
  rw [TimedHost.stopped, setThread_self]
  exact hleaving

/-- The instance that the host waited for is in the registry. -/
theorem Inv.registered (h : s.Inv) {request : ConfigChangedRequest} {a : CreateAnswers}
    (hw : s.wait = .starting request a)
    (hd : (s.threads s.registry.created.length).startDone = some true) :
    Inv { s with
      wait := .idle, registry := s.registry.ensureInstance request { a with started := some true } } := by
  obtain ⟨h1, h2, h3, h4, h5⟩ := h.at_wait hw
  exact h.created (a := { a with started := some true }) h1 h2 (by rw [hw]; rfl)
    fun _ => ⟨⟨[], by simp, h3⟩, hd, h4, h5⟩

theorem Inv.waitStep (h : s.Inv) (ht : WaitStep s t) : t.Inv := by
  cases ht with
  | registered hw hd => exact (h.registered hw hd).executeOnRuntime rfl _ (isOther_hook _)
  | rollback started hw hs hne => exact h.rollback hw hne
  | @rolledBack request a hw hx =>
    obtain ⟨h1, h2, h3⟩ := h.at_wait hw
    have hl : (s.stopped s.registry.created.length).wait.leaving = none :=
      (congrArg Wait.leaving hw).trans rfl
    exact (h.stopped_new hw hx).created (a := { a with stop := .ok () }) h1 h2 hl fun h => absurd h h3
  | @notRolledBack request a hw =>
    obtain ⟨h1, h2, h3⟩ := h.at_wait hw
    exact h.created (a := { a with stop := stopTimedOut }) h1 h2 (by rw [hw]; rfl) fun h => absurd h h3
  | join hw => exact h.join hw
  | removed hw hx => exact (h.stopped_leaving hw hx).removed hw _
  | leaked hw => exact h.removed hw _

theorem isIdle_iff : s.isIdle = true ↔ s.wait = .idle ∧ s.teardown = [] := by
  unfold isIdle
  cases s.wait <;> cases s.teardown <;> simp

theorem Inv.teardown (h : s.Inv) (l : List ExternalId) : Inv { s with teardown := l } :=
  ⟨h.valid, h.ok, h.script, h.fresh, h.hosted, h.wait⟩

/-- **One step keeps the invariant**. -/
theorem step_inv (h : s.Inv) {a : HookAct} (ht : s.step a = some t) : t.Inv := by
  cases a with
  | configChanged request a =>
    obtain ⟨hc, ht⟩ := Option.ite_none_right_eq_some.1 ht
    cases ht
    exact h.configChanged (isIdle_iff.1 (Bool.and_eq_true_iff.1 hc).1).1 request a
  | instanceRemoved key =>
    obtain ⟨hc, ht⟩ := Option.ite_none_right_eq_some.1 ht
    cases ht
    exact h.removeInstance (isIdle_iff.1 (Bool.and_eq_true_iff.1 hc).1).1 key
  | stop keys =>
    obtain ⟨-, ht⟩ := Option.ite_none_right_eq_some.1 ht
    cases ht
    exact h.teardown keys
  | next =>
    simp only [step] at ht
    split at ht
    · next key rest hw _ =>
      cases ht
      exact (h.teardown rest).removeInstance hw key
    · cases ht
  | dispatch key task =>
    obtain ⟨hc, ht⟩ := Option.ite_none_right_eq_some.1 ht
    cases ht
    simp only [Bool.and_eq_true, decide_eq_true_eq] at hc
    exact h.executeOnRuntime (isIdle_iff.1 hc.1.1).1 key ⟨hc.1.2, hc.2⟩
  | dispatchAll task =>
    obtain ⟨hc, ht⟩ := Option.ite_none_right_eq_some.1 ht
    cases ht
    simp only [Bool.and_eq_true, decide_eq_true_eq] at hc
    exact h.executeOnAllRuntimes (isIdle_iff.1 hc.1.1).1 ⟨hc.1.2, hc.2⟩
  | waited => exact h.waitStep (waited_cases ht)
  | timeout => exact h.waitStep (timeout_cases ht)
  | work i a =>
    obtain ⟨-, ht⟩ := Option.ite_none_left_eq_some.1 ht
    obtain ⟨w, hw, rfl⟩ := Option.map_eq_some_iff.1 ht
    exact h.work hw

theorem run_inv {as : List HookAct} (h : machine.run {} as = some s) : s.Inv :=
  Lts.Machine.run_inv (I := Inv) (fun _ _ _ h ht => step_inv h ht) .init h

/-- **The hooks of every instance are in order**, in every run. -/
theorem run_inOrder {as : List HookAct} (h : machine.run {} as = some s) (i : Nat) :
    (s.threads i).InOrder := ((run_inv h).ok i).inOrder ((run_inv h).script i)

end TimedHost

end Phi.Host
