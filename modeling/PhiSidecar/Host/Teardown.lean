import PhiSidecar.Host.Lifecycle

/-!
# Leak instead of destroy

`Safe tr`: nowhere in the trace is an instance destroyed whose backend's last `stop` returned false.
The regular teardown keeps to it (`stopAndDestroyInstance_sound`); the rollbacks of a failed start
destroy the instance whatever `stop` returned (`run_destroys_live`).

* `run_sound`: **in every run in which no rollback of a failed start gets false from the stop of its
  backend, no instance is destroyed under a live worker, and each one whose backend did not stop is
  leaked**.
-/

set_option autoImplicit false

namespace Phi.Host

open Phi.V1 Phi.Wire Phi.Dispatcher

namespace Effect

/-- Neither the stop of a backend nor the destruction of an instance. -/
def Quiet : Effect → Prop
  | backendStop _ _ _ | destroyInstance _ => False
  | _ => True

/-- The result of a stop of the backend of `i`. -/
def stopOf (i : Nat) : Effect → Option Bool
  | backendStop j _ result => if j = i then some result else none
  | _ => none

end Effect

namespace Lifecycle

/-- What the last stop of the backend of `i` returned. -/
def lastStop (tr : List Effect) (i : Nat) : Option Bool := (tr.filterMap (·.stopOf i)).getLast?

/-- No instance is destroyed after the last stop of its backend returned false. -/
def Safe (tr : List Effect) : Prop :=
  ∀ pre i post, tr = pre ++ .destroyInstance i :: post → lastStop pre i ≠ some false

def AllQuiet (q : List Effect) : Prop := ∀ e ∈ q, e.Quiet

theorem Quiet.stopOf {e : Effect} (h : e.Quiet) (i : Nat) : e.stopOf i = none := by
  cases e <;> first | rfl | exact h.elim

theorem lastStop_quiet {q : List Effect} (h : AllQuiet q) (tr : List Effect) (i : Nat) :
    lastStop (tr ++ q) i = lastStop tr i := by
  rw [lastStop, List.filterMap_append,
    List.filterMap_eq_nil_iff.2 fun e he => Quiet.stopOf (h e he) i, List.append_nil, lastStop]

theorem lastStop_stop (tr : List Effect) (i : Nat) (timeout : Int) (r : Bool) :
    lastStop (tr ++ [.backendStop i timeout r]) i = some r := by
  simp [lastStop, Effect.stopOf]

theorem lastStop_none {tr : List Effect} {i : Nat} (h : ∀ t r, .backendStop i t r ∉ tr) :
    lastStop tr i = none := by
  rw [lastStop, List.filterMap_eq_nil_iff.2, List.getLast?_nil]
  intro e he
  cases e with
  | backendStop j t r =>
    by_cases hj : j = i
    · exact absurd (hj ▸ he) (h t r)
    · simp [Effect.stopOf, hj]
  | _ => rfl

theorem Safe.concat {tr : List Effect} {e : Effect} (h : Safe tr)
    (he : ∀ i, e = .destroyInstance i → lastStop tr i ≠ some false) : Safe (tr ++ [e]) := by
  intro pre i post heq
  rcases List.eq_nil_or_concat post with rfl | ⟨post, e', rfl⟩
  · obtain ⟨rfl, h'⟩ := List.append_inj' heq rfl
    exact he i (List.cons.inj h').1
  · have heq' : tr ++ [e] = (pre ++ .destroyInstance i :: post) ++ [e'] := by
      rw [heq]; simp
    exact h pre i post (List.append_inj' heq' rfl).1

theorem Safe.quiet {tr q : List Effect} (h : Safe tr) (hq : AllQuiet q) : Safe (tr ++ q) := by
  induction q generalizing tr with
  | nil => rwa [List.append_nil]
  | cons e q ih =>
    rw [← List.singleton_append, ← List.append_assoc]
    refine ih (h.concat fun i hi => ?_) fun e he => hq e (.tail _ he)
    have he := hq e (.head _)
    rw [hi] at he
    exact he.elim

theorem Safe.stop {tr : List Effect} (h : Safe tr) (i : Nat) (timeout : Int) (r : Bool) :
    Safe (tr ++ [.backendStop i timeout r]) := h.concat fun _ hi => by cases hi

theorem Safe.destroy {tr : List Effect} {i : Nat} (h : Safe tr) (hi : lastStop tr i ≠ some false) :
    Safe (tr ++ [.destroyInstance i]) := h.concat fun j hj => by cases hj; exact hi

/-! ## The invariant -/

structure Sound (s : Lifecycle) : Prop where
  safe : Safe s.trace
  leaked : ∀ i t, .backendStop i t false ∈ s.trace → .leakInstance i ∈ s.trace
  /-- Only existing instances are stopped or hosted. -/
  stopped : ∀ i t r, .backendStop i t r ∈ s.trace → i < s.created
  hosted : ∀ p ∈ s.instances, p.2 < s.created

variable {s t : Lifecycle}

/-- A quiet effect. -/
theorem Sound.emit {e : Effect} (hs : s.Sound) (he : e.Quiet) : (s.emit e).Sound := by
  have hne : ∀ i t r, e ≠ .backendStop i t r := fun i t r h => by subst h; exact he
  have hmem : ∀ {i t r}, .backendStop i t r ∈ s.trace ++ [e] → .backendStop i t r ∈ s.trace :=
    fun h => (List.mem_append.1 h).resolve_right fun h => hne _ _ _ (List.mem_singleton.1 h).symm
  exact ⟨hs.safe.quiet fun e' h => List.mem_singleton.1 h ▸ he,
    fun i t h => List.mem_append_left _ (hs.leaked i t (hmem h)),
    fun i t r h => hs.stopped i t r (hmem h), hs.hosted⟩

theorem Sound.destroyInstance {i : Nat} (hs : s.Sound) (hi : lastStop s.trace i ≠ some false) :
    (s.destroyInstance i).Sound := by
  have hmem : ∀ {j t r}, .backendStop j t r ∈ s.trace ++ [.destroyInstance i] →
      .backendStop j t r ∈ s.trace :=
    fun h => (List.mem_append.1 h).resolve_right fun h => by cases List.mem_singleton.1 h
  exact ⟨hs.safe.destroy hi, fun i t h => List.mem_append_left _ (hs.leaked i t (hmem h)),
    fun i t r h => hs.stopped i t r (hmem h), hs.hosted⟩

/-- A stop that succeeds. -/
theorem Sound.stop {i : Nat} {timeout : Int} (hs : s.Sound) (hi : i < s.created) :
    (s.emit (.backendStop i timeout true)).Sound := by
  refine ⟨hs.safe.stop i timeout true, fun j t h => ?_, fun j t r h => ?_, hs.hosted⟩
  · have h := (List.mem_append.1 h).resolve_right fun h => by cases List.mem_singleton.1 h
    exact List.mem_append_left _ (hs.leaked j t h)
  · rcases List.mem_append.1 h with h | h
    · exact hs.stopped j t r h
    · cases List.mem_singleton.1 h; exact hi

/-- A stop that fails, and the leak. -/
theorem Sound.leak {i : Nat} {timeout : Int} (hs : s.Sound) (hi : i < s.created) (m m' : Utf8String) :
    (s.emit (.backendStop i timeout false) |>.emit (.protocolError m) |>.emit (.protocolError m')
      |>.emit (.leakInstance i)).Sound := by
  have htr : s.trace ++ [.backendStop i timeout false] ++ [.protocolError m] ++ [.protocolError m'] ++
      [.leakInstance i] = s.trace ++ [.backendStop i timeout false] ++
        [.protocolError m, .protocolError m', .leakInstance i] := by simp
  have hq : AllQuiet [.protocolError m, .protocolError m', .leakInstance i] := by
    simp [AllQuiet, Effect.Quiet]
  refine ⟨?_, fun j t h => ?_, fun j t r h => ?_, hs.hosted⟩
  · show Safe _
    simp only [Lifecycle.emit, htr]
    exact (hs.safe.stop i timeout false).quiet hq
  · simp only [Lifecycle.emit, List.mem_append, List.mem_singleton] at h ⊢
    rcases h with (((h | h) | h) | h) | h
    · exact .inl (.inl (.inl (.inl (hs.leaked j t h))))
    all_goals cases h
    exact .inr rfl
  · simp only [Lifecycle.emit, List.mem_append, List.mem_singleton] at h
    rcases h with (((h | h) | h) | h) | h
    · exact hs.stopped j t r h
    all_goals cases h
    exact hi

theorem Sound.reportProtocolError (hs : s.Sound) (m : Utf8String) :
    (s.reportProtocolError m).Sound := hs.emit trivial

theorem findRuntime_lt (hs : s.Sound) {externalId : ExternalId} {i : Nat}
    (h : s.findRuntime externalId = some i) : i < s.created := by
  obtain ⟨k, hk⟩ : ∃ k, (k, i) ∈ s.instances := by
    obtain ⟨l₁, l₂, he, -⟩ := List.lookup_eq_some_iff.1 h
    exact ⟨externalId, by rw [he]; simp⟩
  exact hs.hosted _ hk

/-! ## Teardown -/

theorem Sound.stopHook (hs : s.Sound) (externalId : ExternalId) (i : Nat) (stopBudget : Int)
    (a : StopAnswers) : (s.stopHook externalId i stopBudget a).Sound := by
  have h2 : (s.emit (.requestStop i) |>.emit (.backendExecute i .stop)).Sound :=
    (hs.emit (e := .requestStop i) trivial).emit trivial
  unfold Lifecycle.stopHook
  split
  · exact h2.reportProtocolError _
  · split_ifs
    · exact h2
    · exact h2.reportProtocolError _

theorem stopHook_created (s : Lifecycle) (externalId : ExternalId) (i : Nat) (stopBudget : Int)
    (a : StopAnswers) : (s.stopHook externalId i stopBudget a).created = s.created := by
  unfold Lifecycle.stopHook
  split
  · rfl
  · split_ifs <;> rfl

/-- **The regular teardown leaks an instance whose backend did not stop.** -/
theorem Sound.stopAndDestroyInstance (hs : s.Sound) (externalId : ExternalId) (budget : Int)
    (a : StopAnswers) : (s.stopAndDestroyInstance externalId budget a).Sound := by
  unfold Lifecycle.stopAndDestroyInstance
  cases hf : s.findRuntime externalId with
  | none => exact hs
  | some i =>
    simp only
    have hlt := findRuntime_lt hs hf
    have herase : { s with instances := s.instances.filter (·.1 ≠ externalId) }.Sound :=
      ⟨hs.safe, hs.leaked, hs.stopped, fun p hp => hs.hosted p (List.mem_filter.1 hp).1⟩
    have hhook := herase.stopHook externalId i (atLeastMinimumSlice (budget * 3 / 5)) a
    have hi : i < ({ s with instances := s.instances.filter (·.1 ≠ externalId) }.stopHook externalId i
        (atLeastMinimumSlice (budget * 3 / 5)) a).created := by
      rw [stopHook_created]
      exact hlt
    cases ha : a.stop with
    | ok u =>
      refine (hhook.stop hi).destroyInstance ?_
      simp only [Lifecycle.emit, lastStop_stop]
      decide
    | error e => exact hhook.leak hi _ _

theorem Sound.requestStops (hs : s.Sound) (answers : List (ExternalId × Int × StopAnswers)) :
    (answers.foldl (fun s a => match s.findRuntime a.1 with
      | some i => s.emit (.requestStop i)
      | none => s) s).Sound := by
  induction answers generalizing s with
  | nil => exact hs
  | cons a answers ih =>
    refine ih ?_
    cases hf : s.findRuntime a.1 with
    | none => simp only [hf]; exact hs
    | some i => simp only [hf]; exact hs.emit trivial

theorem Sound.stopAndDestroyInstances (hs : s.Sound) (answers : List (ExternalId × Int × StopAnswers)) :
    (s.stopAndDestroyInstances answers).Sound := by
  have h := hs.requestStops answers
  unfold Lifecycle.stopAndDestroyInstances
  generalize List.foldl _ s answers = t at h ⊢
  induction answers generalizing t with
  | nil => exact h
  | cons a answers ih => exact ih _ (h.stopAndDestroyInstance _ _ _)

/-! ## Creation -/

/-- The start of the new instance fails after its backend was started. -/
def StartFails (a : CreateAnswers) : Prop :=
  a.executionCreated = true ∧ isOk a.start = true ∧ (isOk a.execute = false ∨ a.started ≠ some true)

/-- The request creates an instance. -/
def Creates (s : Lifecycle) (request : ConfigChangedRequest) (a : CreateAnswers) : Prop :=
  request.adapter.externalId ≠ [] ∧ s.findRuntime request.adapter.externalId = none ∧
    ¬(0 < a.maxInstances.toInt ∧ a.maxInstances.toInt ≤ s.instances.length) ∧
    a.instanceCreated = true

/-- If the step rolls a failed start back, the backend stops. -/
def RollbackStops (s : Lifecycle) : LifecycleAct → Prop
  | .configChanged request a _ => Creates s request a → StartFails a → isOk a.stop = true
  | _ => True

theorem Sound.rollback {i : Nat} {answer : Except Utf8String Unit} (hs : s.Sound)
    (hi : i < s.created) (ha : isOk answer = true) (text : Utf8String) :
    (s.rollback i answer text).Sound := by
  cases answer with
  | error e => cases ha
  | ok u =>
    refine (hs.stop hi).destroyInstance ?_
    simp only [Lifecycle.emit, lastStop_stop]
    decide

theorem Sound.createRuntime (hs : s.Sound) {request : ConfigChangedRequest} {a : CreateAnswers} {i : Nat}
    (hi : i < s.created) (hnew : ∀ t r, .backendStop i t r ∉ s.trace)
    (hno : s.findRuntime request.adapter.externalId = none)
    (hok : StartFails a → isOk a.stop = true) : (s.createRuntime request a i).1.Sound := by
  have h1 : (s.emit (.createInstance i request.adapter.externalId)).Sound := hs.emit trivial
  have h2 := h1.emit (e := .backendStart i) trivial
  have h3 := h2.emit (e := .bindContext i request.adapterId request.adapter.pluginType
    request.adapter.externalId) trivial
  have h4 := h3.emit (e := .backendExecute i .start) trivial
  have hlast : ∀ q, AllQuiet q → lastStop (s.trace ++ q) i ≠ some false := fun q hq => by
    rw [lastStop_quiet hq, lastStop_none hnew]
    decide
  unfold Lifecycle.createRuntime
  by_cases he : a.executionCreated = true
  · rw [if_neg (by simp [he])]
    cases hst : a.start with
    | error e =>
      refine h2.destroyInstance ?_
      simp only [Lifecycle.emit, List.append_assoc]
      exact hlast _ (by simp [AllQuiet, Effect.Quiet])
    | ok u =>
      have hfail : isOk a.execute = false ∨ a.started ≠ some true → isOk a.stop = true :=
        fun h => hok ⟨he, by rw [hst]; rfl, h⟩
      cases hex : a.execute with
      | error e => exact h4.rollback hi (hfail (.inl (by rw [hex]; rfl))) _
      | ok u =>
        cases hd : a.started with
        | none => exact h4.rollback hi (hfail (.inr (by simp [hd]))) _
        | some b =>
          cases b with
          | false => exact h4.rollback hi (hfail (.inr (by simp [hd]))) _
          | true =>
            have hno' : ∀ tr, { s with trace := tr }.findRuntime request.adapter.externalId = none :=
              fun _ => hno
            simp only [Lifecycle.emit, hno', Option.isSome_none, Bool.false_eq_true, if_false]
            refine ⟨h4.safe, h4.leaked, h4.stopped, fun p hp => ?_⟩
            rcases List.mem_append.1 hp with hp | hp
            · exact hs.hosted p hp
            · rw [List.mem_singleton.1 hp]; exact hi
  · rw [if_pos (by simpa using he)]
    refine h1.destroyInstance ?_
    exact hlast [_] (by simp [AllQuiet, Effect.Quiet])

theorem Sound.createInstanceRuntime (hs : s.Sound) {request : ConfigChangedRequest} {a : CreateAnswers}
    (hok : Creates s request a → StartFails a → isOk a.stop = true) :
    (s.createInstanceRuntime request a).1.Sound := by
  unfold Lifecycle.createInstanceRuntime
  by_cases h1 : request.adapter.externalId = []
  · rw [if_pos h1]; exact hs
  rw [if_neg h1]
  cases h2 : s.findRuntime request.adapter.externalId with
  | some i => exact hs
  | none =>
    rw [if_neg (by simp)]
    by_cases h3 : 0 < a.maxInstances.toInt ∧ a.maxInstances.toInt ≤ s.instances.length
    · rw [if_pos h3]; exact hs
    rw [if_neg h3]
    cases h4 : a.instanceCreated with
    | false => exact hs
    | true =>
      have hs' : { s with created := s.created + 1 }.Sound :=
        ⟨hs.safe, hs.leaked, fun i t r h => Nat.lt_succ_of_lt (hs.stopped i t r h),
          fun p hp => Nat.lt_succ_of_lt (hs.hosted p hp)⟩
      exact hs'.createRuntime (Nat.lt_succ_self _)
        (fun t r h => absurd (hs.stopped _ t r h) (Nat.lt_irrefl _)) h2 (hok ⟨h1, h2, h3, h4⟩)

theorem Sound.ensureInstance (hs : s.Sound) {request : ConfigChangedRequest} {a : CreateAnswers}
    (hok : Creates s request a → StartFails a → isOk a.stop = true) :
    (s.ensureInstance request a).1.Sound := by
  have hc := hs.createInstanceRuntime hok
  unfold Lifecycle.ensureInstance
  simp only
  split_ifs
  · exact hs
  · exact hs
  · split
    · next he => rw [he] at hc; exact hc
    · next he => rw [he] at hc; exact hc.reportProtocolError _

/-- **One step**. -/
theorem Sound.step {act : LifecycleAct} (hs : s.Sound) (hok : RollbackStops s act)
    (h : s.step act = some t) : t.Sound := by
  cases act with
  | configChanged request a execute =>
    cases h
    have he := hs.ensureInstance hok
    unfold Lifecycle.configChanged
    split
    · next hr => rw [hr] at he; exact he
    · next i hr =>
      rw [hr] at he
      split
      · exact he.emit trivial
      · exact (he.emit (e := .backendExecute i (.configChanged request)) trivial).reportProtocolError _
  | instanceRemoved externalId a =>
    cases h
    unfold Lifecycle.instanceRemoved
    split_ifs
    · exact hs.reportProtocolError _
    · exact hs.stopAndDestroyInstance _ _ _
  | stop answers =>
    obtain ⟨-, h⟩ := Option.ite_none_right_eq_some.1 h
    cases h; exact hs.stopAndDestroyInstances answers

theorem Sound.init : Sound {} :=
  ⟨fun pre i post h => by simp at h, by simp, by simp, by simp⟩

/-- **An instance is never destroyed under a live worker, but leaked**, in a run in which the backend
stops in each rollback of a failed start. -/
theorem run_sound {acts : List LifecycleAct} (hok : machine.Along RollbackStops {} acts)
    (h : machine.run {} acts = some s) :
    Safe s.trace ∧ ∀ i t, .backendStop i t false ∈ s.trace → .leakInstance i ∈ s.trace := by
  have hs : s.Sound := Lts.Machine.along_inv (fun _ _ _ hs hok h => hs.step hok h) .init hok h
  exact ⟨hs.safe, hs.leaked⟩

/-- An instance is created and then removed with a backend that does not stop. -/
theorem run_sound_leaked :
    let request : ConfigChangedRequest := { adapter := { externalId := lit "a" } }
    let acts := [.configChanged request {} (.ok ()),
      .instanceRemoved (lit "a") { stop := .error (lit "timed out") }]
    ∃ s, machine.Along RollbackStops {} acts ∧ machine.run {} acts = some s ∧ Safe s.trace ∧
      ∀ i t, .backendStop i t false ∈ s.trace → .leakInstance i ∈ s.trace := by
  intro request acts
  have hok : machine.Along RollbackStops {} acts := by
    refine ⟨fun _ h => ?_, fun t _ => ⟨trivial, fun _ _ => trivial⟩⟩
    rcases h.2.2 with h | h
    · cases h
    · exact absurd rfl h
  obtain ⟨s, hs⟩ : ∃ s, machine.run {} acts = some s := ⟨_, rfl⟩
  exact ⟨s, hok, hs, run_sound hok hs⟩

/-! ## The rollbacks -/

theorem Safe.prefix {tr q : List Effect} (h : Safe (tr ++ q)) : Safe tr := fun pre i post he =>
  h pre i (post ++ q) (by rw [he]; simp)

/-- A rollback whose backend does not stop destroys the instance all the same. -/
theorem rollback_unsafe {answer : Except Utf8String Unit} (h : isOk answer = false) (s : Lifecycle)
    (i : Nat) (text : Utf8String) : ¬Safe (s.rollback i answer text).trace := by
  cases answer with
  | ok u => cases h
  | error e =>
    intro hs
    refine hs (s.trace ++ [.backendStop i kExecutionBackendStopTimeout false] ++
      [.protocolError (text ++ e)]) i [] rfl ?_
    rw [lastStop_quiet (by simp [AllQuiet, Effect.Quiet]), lastStop_stop]

/-- **The condition is exact**: a step that gets false from the stop of a rollback destroys the
instance under its worker. -/
theorem configChanged_unsafe {request : ConfigChangedRequest} {a : CreateAnswers}
    (hc : Creates s request a) (hf : StartFails a) (hstop : isOk a.stop = false)
    (execute : Except Utf8String Unit) : ¬Safe (s.configChanged request a execute).trace := by
  obtain ⟨h1, h2, h3, h4⟩ := hc
  obtain ⟨f1, f2, f3⟩ := hf
  have hr : ∃ u e, ({ s with created := s.created + 1 }.createRuntime request a s.created) =
      (u, .error e) ∧ ¬Safe u.trace := by
    unfold Lifecycle.createRuntime
    rw [if_neg (by simp [f1])]
    cases hst : a.start with
    | error e => rw [hst] at f2; cases f2
    | ok u =>
      cases hex : a.execute with
      | error e => exact ⟨_, _, rfl, rollback_unsafe hstop _ _ _⟩
      | ok u =>
        cases hd : a.started with
        | none => exact ⟨_, _, rfl, rollback_unsafe hstop _ _ _⟩
        | some b =>
          cases b with
          | false => exact ⟨_, _, rfl, rollback_unsafe hstop _ _ _⟩
          | true =>
            rcases f3 with f3 | f3
            · rw [hex] at f3; cases f3
            · exact absurd hd f3
  obtain ⟨u, e, hu, hunsafe⟩ := hr
  have hcreate : s.createInstanceRuntime request a = (u, .error e) := by
    rw [Lifecycle.createInstanceRuntime, if_neg h1, h2, if_neg (by simp), if_neg h3,
      if_neg (by simp [h4]), hu]
  unfold Lifecycle.configChanged Lifecycle.ensureInstance
  simp only [h1, h2, hcreate, Option.isSome_none, Bool.false_eq_true, if_false]
  exact fun h => hunsafe h.prefix

/-- A start hook that outlives the start wait and the stop of its backend: the host destroys the
instance that it still runs in. -/
theorem run_destroys_live :
    let request : ConfigChangedRequest := { adapter := { externalId := lit "a" } }
    ∃ s, machine.run {} [.configChanged request
        { started := none, stop := .error (lit "Timed out waiting for execution backend stop") }
        (.ok ())] = some s ∧
      (∃ t, .backendStop 0 t false ∈ s.trace) ∧ .destroyInstance 0 ∈ s.trace ∧ ¬Safe s.trace := by
  intro request
  refine ⟨({} : Lifecycle).configChanged request _ _, rfl, ⟨kExecutionBackendStopTimeout, ?_⟩, ?_, ?_⟩
  · exact @List.mem_of_getElem? _ _ 4 _ rfl
  · exact @List.mem_of_getElem? _ _ 6 _ rfl
  · exact configChanged_unsafe ⟨by decide, rfl, by decide, rfl⟩ ⟨rfl, rfl, .inr (by decide)⟩ rfl _

end Lifecycle

end Phi.Host
