import PhiSidecar.Host.Restart

/-!
# The shutdown budget (`sidecar.cpp`: `SidecarHost::stop`, `stopAndDestroyInstances`,
`remainingUntil`)

`stop` takes its budget as one deadline and divides what remains of it among the instances that are
left. A slice is never smaller than `kMinimumStopSlice`, and neither is either half of it, so an
instance costs up to two such slices even after the deadline.

The clock counts milliseconds and moves only in the waits that `stop` grants: for the stop hook and
the backend of every instance, and for the factory's backend. How much of a wait is used comes with
the answers.

* `stop_within_iff`: **when every wait is used up, `stop(kShutdownBudget)` takes no more than the
  3000 ms after which the process is killed, if and only if there are at most 29 instances** (30 for
  a factory without a backend).
-/

set_option autoImplicit false

namespace Phi.Host

open Phi.V1 Phi.Dispatcher

def kFactoryStopReserveMax : Int := 500

/-- After this time, in milliseconds, phi-core kills a process that it asked to stop. -/
def killAfter : Int := 3000

/-- `remainingUntil`, at the time `now`. -/
def remainingUntil (deadline now : Int) : Int := if 0 < deadline - now then deadline - now else 0

/-- The waits of `stopAndDestroyInstance`: for the stop hook, and for the backend. -/
def stopBudget (budget : Int) : Int := atLeastMinimumSlice (budget * 3 / 5)
def joinBudget (budget : Int) : Int := atLeastMinimumSlice (budget - stopBudget budget)

/-- How much of the two waits an instance uses; by default everything. -/
structure Waits where
  stopHook : Int → Int := id
  backendStop : Int → Int := id

/-- One instance at a stop: what its hooks and its backend answer, and how long they take. -/
abbrev Stopped := ExternalId × StopAnswers × Waits

structure ClockedHost where
  host : HostControl
  now : Int := 0

namespace ClockedHost

/-- `stopAndDestroyInstance`. It waits for an instance that is there, and for its hook if that was
scheduled. -/
def stopAndDestroyInstance (s : ClockedHost) (externalId : ExternalId) (budget : Int)
    (a : StopAnswers) (w : Waits) : ClockedHost where
  host := { s.host with
    lifecycle := s.host.lifecycle.stopAndDestroyInstance externalId budget a }
  now :=
    if (s.host.lifecycle.findRuntime externalId).isSome then
      s.now + (if Lifecycle.isOk a.execute then w.stopHook (stopBudget budget) else 0) +
        w.backendStop (joinBudget budget)
    else s.now

/-- The first loop of `stopAndDestroyInstances`. -/
def requestStops (s : ClockedHost) (externalIds : List ExternalId) : ClockedHost :=
  let lifecycle := externalIds.foldl
    (fun l externalId => match l.findRuntime externalId with
      | some i => l.emit (.requestStop i)
      | none => l) s.host.lifecycle
  { s with host := { s.host with lifecycle } }

/-- The second loop: every instance gets its part of what remains. -/
def stopEach (s : ClockedHost) (deadline : Int) : List Stopped → ClockedHost
  | [] => s
  | (externalId, a, w) :: rest =>
    let pending := rest.length + 1
    let slice := atLeastMinimumSlice (remainingUntil deadline s.now / pending)
    (s.stopAndDestroyInstance externalId slice a w).stopEach deadline rest

def stopAndDestroyInstances (s : ClockedHost) (deadline : Int)
    (instances : List Stopped) : ClockedHost :=
  (s.requestStops (instances.map Prod.fst)).stopEach deadline instances

/-- `SidecarHost::stop`; `factoryWait` says how much of its wait the factory's backend uses. -/
def stop (s : ClockedHost) (budget : Int) (instances : List Stopped)
    (a : ShutdownAnswers) (factoryWait : Int → Int := id) : ClockedHost :=
  let clamped := if 0 < budget then budget else 0
  let deadline := s.now + clamped
  let factoryReserve := min (clamped / 4) kFactoryStopReserveMax
  let s := s.stopAndDestroyInstances (deadline - factoryReserve) instances
  let slice := atLeastMinimumSlice (remainingUntil deadline s.now)
  { host := s.host.stop a
    now := if s.host.factoryActive && s.host.factoryExecution then s.now + factoryWait slice else s.now }

end ClockedHost

/-! ## The registry is a map -/

namespace Lifecycle

variable {s t : Lifecycle}

theorem stopHook_instances (s : Lifecycle) (externalId : ExternalId) (i : Nat) (budget : Int)
    (a : StopAnswers) : (s.stopHook externalId i budget a).instances = s.instances := by
  unfold stopHook
  cases a.execute with
  | error e => rfl
  | ok =>
    dsimp only
    split <;> rfl

theorem stopBackend_instances (s : Lifecycle) (i : Nat) (timeout : Int) (answer : Except Utf8String Unit)
    (text : Utf8String) : (s.stopBackend i timeout answer text).instances = s.instances := by
  cases answer <;> rfl

/-- An instance that is removed leaves the others. -/
theorem stopAndDestroyInstance_instances (s : Lifecycle) (externalId : ExternalId) (budget : Int)
    (a : StopAnswers) : (s.stopAndDestroyInstance externalId budget a).instances =
      s.instances.filter (·.1 ≠ externalId) := by
  unfold Lifecycle.stopAndDestroyInstance
  cases hf : s.findRuntime externalId with
  | none =>
    symm
    rw [List.filter_eq_self]
    intro p hp
    have hne : externalId ≠ p.1 := by simpa using List.lookup_eq_none_iff.1 hf p hp
    exact decide_eq_true hne.symm
  | some i =>
    dsimp only
    split
    · exact (stopBackend_instances _ _ _ _ _).trans (stopHook_instances _ _ _ _ _)
    · exact (stopBackend_instances _ _ _ _ _).trans (stopHook_instances _ _ _ _ _)

theorem requestStops_instances (s : Lifecycle) (externalIds : List ExternalId) :
    (externalIds.foldl (fun s externalId => match s.findRuntime externalId with
      | some i => s.emit (.requestStop i)
      | none => s) s).instances = s.instances := by
  induction externalIds generalizing s with
  | nil => rfl
  | cons externalId externalIds ih =>
    rw [List.foldl_cons, ih]
    split <;> rfl

theorem findRuntime_isSome {externalId : ExternalId} :
    (s.findRuntime externalId).isSome = true ↔ externalId ∈ s.instances.map Prod.fst := by
  rw [findRuntime, Option.isSome_iff_ne_none, ne_eq, List.lookup_eq_none_iff, List.mem_map]
  constructor
  · intro h
    by_contra hnot
    refine h fun p hp => ?_
    by_contra heq
    have hkey : externalId = p.1 := by simpa using heq
    exact hnot ⟨p, hp, hkey.symm⟩
  · rintro ⟨p, hp, rfl⟩ hnone
    simpa using hnone p hp

/-- An instance is added under a key that is not there, or not at all. -/
theorem createRuntime_instances (s : Lifecycle) (request : ConfigChangedRequest) (a : CreateAnswers)
    (i : Nat) :
    (s.createRuntime request a i).1.instances = s.instances ∨
      s.findRuntime request.adapter.externalId = none ∧
        (s.createRuntime request a i).1.instances =
          s.instances ++ [(request.adapter.externalId, i)] := by
  unfold createRuntime rollback destroyInstance
  simp only
  split
  · exact .inl rfl
  · cases a.start with
    | error => exact .inl rfl
    | ok =>
      cases a.execute with
      | error => exact .inl (stopBackend_instances _ _ _ _ _)
      | ok =>
        match a.started with
        | none => exact .inl (stopBackend_instances _ _ _ _ _)
        | some false => exact .inl (stopBackend_instances _ _ _ _ _)
        | some true =>
          dsimp only
          split
          · exact .inl (stopBackend_instances _ _ _ _ _)
          · next h => exact .inr ⟨Option.not_isSome_iff_eq_none.1 h, rfl⟩

theorem ensureInstance_keys (hs : (s.instances.map Prod.fst).Nodup) (request : ConfigChangedRequest)
    (a : CreateAnswers) : ((s.ensureInstance request a).1.instances.map Prod.fst).Nodup := by
  have hcreate : ((s.createInstanceRuntime request a).1.instances.map Prod.fst).Nodup := by
    unfold createInstanceRuntime
    split_ifs
    · exact hs
    · exact hs
    · exact hs
    · exact hs
    · obtain heq | ⟨hnew, heq⟩ :=
        createRuntime_instances { s with created := s.created + 1 } request a s.created
      · rw [heq]
        exact hs
      · rw [heq, List.map_append]
        refine List.nodup_append.2 ⟨hs, List.nodup_singleton _, ?_⟩
        rintro key hkey _ (_ | ⟨_, ⟨⟩⟩) rfl
        have hsome := findRuntime_isSome.2 hkey
        rw [hnew] at hsome
        cases hsome
  unfold ensureInstance
  dsimp only
  split_ifs
  · exact hs
  · exact hs
  · split <;> next h =>
      rw [h] at hcreate
      exact hcreate

theorem stopAndDestroyInstance_keys (hs : (s.instances.map Prod.fst).Nodup) (externalId : ExternalId)
    (budget : Int) (a : StopAnswers) :
    ((s.stopAndDestroyInstance externalId budget a).instances.map Prod.fst).Nodup := by
  rw [stopAndDestroyInstance_instances]
  exact hs.sublist (List.filter_sublist.map _)

theorem step_keys {a : LifecycleAct} (hs : (s.instances.map Prod.fst).Nodup)
    (h : machine.step s a = some t) : (t.instances.map Prod.fst).Nodup := by
  cases a with
  | configChanged request a execute =>
    cases h
    have hensure := ensureInstance_keys hs request a
    unfold configChanged
    split
    · next h => simpa only [h] using hensure
    · next h =>
      rw [h] at hensure
      cases execute <;> exact hensure
  | instanceRemoved externalId a =>
    cases h
    unfold instanceRemoved
    split
    · exact hs
    · exact stopAndDestroyInstance_keys hs externalId _ a
  | stop answers =>
    simp only [machine, step] at h
    split at h
    · cases h
      have hstops : ∀ (as : List (ExternalId × Int × StopAnswers)) (l : Lifecycle),
          (l.instances.map Prod.fst).Nodup → ((as.foldl (fun l a => l.stopAndDestroyInstance a.1
            (atLeastMinimumSlice a.2.1) a.2.2) l).instances.map Prod.fst).Nodup := by
        intro as
        induction as with
        | nil => exact fun l hl => hl
        | cons a as ih => exact fun l hl => ih _ (stopAndDestroyInstance_keys hl a.1 _ a.2.2)
      rw [stopAndDestroyInstances]
      have hrequests := requestStops_instances s (answers.map Prod.fst)
      rw [List.foldl_map] at hrequests
      exact hstops answers _ (hrequests ▸ hs)
    · cases h

/-- The instances that a run leaves have different keys. -/
theorem run_keys {as : List LifecycleAct} (h : machine.run {} as = some s) :
    (s.instances.map Prod.fst).Nodup := by
  have hempty : (({} : Lifecycle).instances.map Prod.fst).Nodup := List.nodup_nil
  exact machine.run_inv (I := fun s => (s.instances.map Prod.fst).Nodup)
    (fun _ _ _ hs h => step_keys hs h) hempty h

end Lifecycle

/-! ## What stopping every instance takes -/

/-- The time after the instances are stopped, one after the other, from `now` on, if they use every
wait up. -/
def endOfStops (deadline : Int) : Nat → Int → Int
  | 0, now => now
  | pending + 1, now =>
    let slice := atLeastMinimumSlice (remainingUntil deadline now / (pending + 1))
    endOfStops deadline pending (now + stopBudget slice + joinBudget slice)

/-- Whatever its slice, an instance costs at least two minimum slices. -/
theorem two_slices_le (budget : Int) : 2 * kMinimumStopSlice ≤ stopBudget budget + joinBudget budget := by
  unfold joinBudget stopBudget atLeastMinimumSlice
  omega

theorem endOfStops_ge (deadline : Int) (pending : Nat) (now : Int) :
    now + 2 * kMinimumStopSlice * pending ≤ endOfStops deadline pending now := by
  induction pending generalizing now with
  | zero => simp [endOfStops]
  | succ pending ih =>
    rw [endOfStops]
    generalize atLeastMinimumSlice (remainingUntil deadline now / (pending + 1)) = slice
    have hcost := two_slices_le slice
    have hrest := ih (now + stopBudget slice + joinBudget slice)
    rw [kMinimumStopSlice] at hcost hrest ⊢
    push_cast
    omega

/-- Only the time that is left matters. -/
theorem endOfStops_add (deadline : Int) (pending : Nat) (now d : Int) :
    endOfStops (deadline + d) pending (now + d) = endOfStops deadline pending now + d := by
  induction pending generalizing now with
  | zero => rfl
  | succ pending ih =>
    have hleft : remainingUntil (deadline + d) (now + d) = remainingUntil deadline now := by
      unfold remainingUntil
      rw [show deadline + d - (now + d) = deadline - now by omega]
    rw [endOfStops, endOfStops, hleft, ← ih]
    congr 1
    omega

/-- The time that `stop` takes in all, for so many instances and with or without a backend of the
factory. -/
def timeOfStop (budget : Int) (instances : Nat) (backend : Bool) : Int :=
  let spent := endOfStops (budget - min (budget / 4) kFactoryStopReserveMax) instances 0
  if backend then spent + atLeastMinimumSlice (remainingUntil budget spent) else spent

/-- Up to 30 instances by evaluation; from 31 on the minimum slices alone take more than 3000 ms. -/
theorem timeOfStop_le_iff (instances : Nat) (backend : Bool) :
    timeOfStop kShutdownBudget instances backend ≤ killAfter ↔
      instances ≤ 29 ∨ instances = 30 ∧ backend = false := by
  by_cases hle : instances ≤ 30
  · have hall : ∀ n ≤ 30, ∀ b, timeOfStop kShutdownBudget n b ≤ killAfter ↔
        n ≤ 29 ∨ n = 30 ∧ b = false := by
      decide +kernel
    exact hall instances hle backend
  · have hge := endOfStops_ge (kShutdownBudget - min (kShutdownBudget / 4) kFactoryStopReserveMax)
      instances 0
    have hslice (v : Int) : 0 ≤ atLeastMinimumSlice v := by
      unfold atLeastMinimumSlice kMinimumStopSlice
      omega
    have hfactory := hslice (remainingUntil kShutdownBudget
      (endOfStops (kShutdownBudget - min (kShutdownBudget / 4) kFactoryStopReserveMax) instances 0))
    rw [kMinimumStopSlice] at hge
    unfold timeOfStop killAfter
    dsimp only
    split <;> omega

/-! ## The stop of a host -/

namespace ClockedHost

variable {s : ClockedHost}

theorem stopAndDestroyInstance_isSome {externalId other : ExternalId} (budget : Int) (a : StopAnswers)
    (w : Waits) (hne : other ≠ externalId)
    (h : (s.host.lifecycle.findRuntime other).isSome = true) :
    ((s.stopAndDestroyInstance externalId budget a w).host.lifecycle.findRuntime other).isSome =
      true := by
  rw [Lifecycle.findRuntime_isSome] at h ⊢
  obtain ⟨p, hp, rfl⟩ := List.mem_map.1 h
  refine List.mem_map.2 ⟨p, ?_, rfl⟩
  rw [stopAndDestroyInstance, Lifecycle.stopAndDestroyInstance_instances]
  exact List.mem_filter.2 ⟨hp, decide_eq_true hne⟩

/-- The time that passes in the second loop. -/
theorem stopEach_now {deadline : Int} {instances : List Stopped}
    (hkeys : (instances.map Prod.fst).Nodup)
    (hmem : ∀ p ∈ instances, (s.host.lifecycle.findRuntime p.1).isSome = true)
    (huse : ∀ p ∈ instances, p.2.1.execute = .ok () ∧ p.2.2 = {}) :
    (s.stopEach deadline instances).now = endOfStops deadline instances.length s.now := by
  induction instances generalizing s with
  | nil => rfl
  | cons p rest ih =>
    obtain ⟨externalId, a, w⟩ := p
    obtain ⟨hexecute, rfl⟩ : a.execute = .ok () ∧ w = {} := huse _ (.head _)
    obtain ⟨hnot, hkeys⟩ := List.nodup_cons.1 hkeys
    rw [stopEach, ih hkeys ?_ fun q hq => huse q (.tail _ hq)]
    · rw [stopAndDestroyInstance, if_pos (hmem _ (.head _)), hexecute]
      rfl
    · -- the others are still there
      intro q hq
      have hne : q.1 ≠ externalId := fun he => hnot (List.mem_map.2 ⟨q, hq, he⟩)
      exact stopAndDestroyInstance_isSome _ a {} hne (hmem q (.tail _ hq))

theorem requestStops_now (s : ClockedHost) (externalIds : List ExternalId) :
    (s.requestStops externalIds).now = s.now := rfl

/-- The raw slices that the instances get. -/
def slices (s : ClockedHost) (deadline : Int) : List Stopped → List (ExternalId × Int × StopAnswers)
  | [] => []
  | (externalId, a, w) :: rest =>
    let left := remainingUntil deadline s.now / (rest.length + 1 : Nat)
    (externalId, left, a) ::
      (s.stopAndDestroyInstance externalId (atLeastMinimumSlice left) a w).slices deadline rest

theorem slices_keys (s : ClockedHost) (deadline : Int) (instances : List Stopped) :
    (s.slices deadline instances).map Prod.fst = instances.map Prod.fst := by
  induction instances generalizing s with
  | nil => rfl
  | cons p rest ih => exact congrArg (p.1 :: ·) (ih _)

theorem stopAndDestroyInstances_eq (s : ClockedHost) {answers : List (ExternalId × Int × StopAnswers)}
    {externalIds : List ExternalId} (h : answers.map Prod.fst = externalIds) :
    s.host.lifecycle.stopAndDestroyInstances answers = answers.foldl
      (fun l a => l.stopAndDestroyInstance a.1 (atLeastMinimumSlice a.2.1) a.2.2)
      (s.requestStops externalIds).host.lifecycle := by
  subst h
  rw [requestStops, List.foldl_map]
  rfl

/-- The host does under the clock what it does with the slices that the clock gives. -/
theorem stopEach_host (s : ClockedHost) (deadline : Int) (instances : List Stopped) :
    (s.stopEach deadline instances).host = { s.host with
      lifecycle := (s.slices deadline instances).foldl
        (fun l a => l.stopAndDestroyInstance a.1 (atLeastMinimumSlice a.2.1) a.2.2)
        s.host.lifecycle } := by
  induction instances generalizing s with
  | nil => rfl
  | cons p rest ih => exact ih _

/-- The first loop of `stopAndDestroyInstances`, and the deadline that is given to the second one. -/
def stopping (s : ClockedHost) (budget : Int) (instances : List Stopped) : ClockedHost :=
  (s.requestStops (instances.map Prod.fst)).stopEach
    (s.now + budget - min (budget / 4) kFactoryStopReserveMax) instances

theorem stop_eq {budget : Int} (hbudget : 0 ≤ budget) (instances : List Stopped) (a : ShutdownAnswers)
    (factoryWait : Int → Int) :
    s.stop budget instances a factoryWait =
      { host := (s.stopping budget instances).host.stop a
        now :=
          if s.host.factoryActive && s.host.factoryExecution then
            (s.stopping budget instances).now + factoryWait (atLeastMinimumSlice
              (remainingUntil (s.now + budget) (s.stopping budget instances).now))
          else (s.stopping budget instances).now } := by
  have hclamp : (if 0 < budget then budget else 0) = budget := by
    split <;> omega
  have hhost := stopEach_host (s.requestStops (instances.map Prod.fst))
    (s.now + budget - min (budget / 4) kFactoryStopReserveMax) instances
  rw [stop, hclamp, stopAndDestroyInstances, stopping, hhost]
  rfl

/-- A timed stop is a stop of the host, with slices that fit the clock. -/
theorem stop_step {budget : Int} (hbudget : 0 ≤ budget) {instances : List Stopped}
    (hall : (instances.map Prod.fst).Perm (s.host.lifecycle.instances.map Prod.fst))
    (a : ShutdownAnswers) (factoryWait : Int → Int) :
    ∃ slices, s.host.step (.stop slices a) = some (s.stop budget instances a factoryWait).host := by
  have hkeys := slices_keys (s.requestStops (instances.map Prod.fst))
    (s.now + budget - min (budget / 4) kFactoryStopReserveMax) instances
  refine ⟨(s.requestStops (instances.map Prod.fst)).slices
    (s.now + budget - min (budget / 4) kFactoryStopReserveMax) instances, ?_⟩
  rw [stop_eq hbudget, stopping, stopEach_host, HostControl.step, HostControl.onLifecycle, Lifecycle.step,
    hkeys, if_pos (List.isPerm_iff.2 hall), stopAndDestroyInstances_eq s hkeys]
  rfl

/-- Every instance of the host is stopped, and they use up every wait. -/
structure Exhausts (s : ClockedHost) (instances : List Stopped) : Prop where
  keys : (s.host.lifecycle.instances.map Prod.fst).Nodup
  all : (instances.map Prod.fst).Perm (s.host.lifecycle.instances.map Prod.fst)
  waits : ∀ p ∈ instances, p.2.1.execute = .ok () ∧ p.2.2 = {}

/-- The time of a stop, if everything is used up. -/
theorem stop_now {budget : Int} (hbudget : 0 ≤ budget) {instances : List Stopped}
    (hs : s.Exhausts instances) (a : ShutdownAnswers) :
    (s.stop budget instances a).now = s.now +
      timeOfStop budget instances.length (s.host.factoryActive && s.host.factoryExecution) := by
  have hstopping : (s.stopping budget instances).now = s.now +
      endOfStops (budget - min (budget / 4) kFactoryStopReserveMax) instances.length 0 := by
    rw [stopping, stopEach_now (hs.all.nodup_iff.2 hs.keys) ?_ hs.waits]
    · have hshift := endOfStops_add (budget - min (budget / 4) kFactoryStopReserveMax)
        instances.length 0 s.now
      rw [requestStops_now, show s.now + budget - min (budget / 4) kFactoryStopReserveMax =
        budget - min (budget / 4) kFactoryStopReserveMax + s.now by omega]
      rw [Int.zero_add] at hshift
      omega
    · intro p hp
      have hkey : p.1 ∈ s.host.lifecycle.instances.map Prod.fst :=
        hs.all.subset (List.mem_map.2 ⟨p, hp, rfl⟩)
      rw [Lifecycle.findRuntime_isSome, requestStops, Lifecycle.requestStops_instances]
      exact hkey
  rw [stop_eq hbudget, timeOfStop, hstopping]
  dsimp only
  have hleft (spent : Int) :
      remainingUntil (s.now + budget) (s.now + spent) = remainingUntil budget spent := by
    unfold remainingUntil
    rw [show s.now + budget - (s.now + spent) = budget - spent by omega]
  rw [hleft]
  split
  · exact Int.add_assoc _ _ _
  · rfl

end ClockedHost

/-- **The budget of a shutdown.** `stop(kShutdownBudget)` of a host whose instances and backends use up
every wait is over when phi-core kills the process, if and only if it hosts at most 29 instances, or
30 and its factory has no backend. -/
theorem stop_within_iff {s : ClockedHost} {instances : List Stopped} (hs : s.Exhausts instances)
    (a : ShutdownAnswers) :
    (s.stop kShutdownBudget instances a).now - s.now ≤ killAfter ↔
      s.host.lifecycle.instances.length ≤ 29 ∨
        s.host.lifecycle.instances.length = 30 ∧
          (s.host.factoryActive && s.host.factoryExecution) = false := by
  have hlength : instances.length = s.host.lifecycle.instances.length := by
    simpa using hs.all.length_eq
  rw [ClockedHost.stop_now (by decide) hs, ← hlength, ← timeOfStop_le_iff]
  omega

/-- A host with so many instances and a factory that has a backend. -/
def crowded (instances : Nat) : ClockedHost :=
  { host :=
      { factory := some {}, factoryActive := true, factoryExecution := true
        lifecycle.instances := (List.range instances).map fun i => (List.replicate (i + 1) 0x61, i) } }

def crowd (instances : Nat) : List Stopped :=
  (List.range instances).map fun i =>
    (List.replicate (i + 1) 0x61, { completed := false, stop := .error [] }, {})

theorem crowded_exhausts (instances : Nat) : (crowded instances).Exhausts (crowd instances) where
  keys := by
    have hlength : Function.Injective fun i : Nat => List.replicate (i + 1) (0x61 : UInt8) := by
      intro i j h
      simpa using congrArg List.length h
    rw [crowded, List.map_map]
    exact List.Nodup.map hlength List.nodup_range
  all := by
    rw [crowded, crowd, List.map_map, List.map_map]
    exact .refl _
  waits := by
    intro p hp
    obtain ⟨i, -, rfl⟩ := List.mem_map.1 hp
    exact ⟨rfl, rfl⟩

theorem stop_within_two :
    ((crowded 2).stop kShutdownBudget (crowd 2) {}).now - (crowded 2).now ≤ killAfter :=
  (stop_within_iff (crowded_exhausts 2) {}).2 (.inl (by decide))

/-- With 30 instances it takes 3050 ms. -/
theorem stop_thirty_late : ¬∀ (s : ClockedHost) (instances : List Stopped) (a : ShutdownAnswers),
    s.Exhausts instances → (s.stop kShutdownBudget instances a).now - s.now ≤ killAfter := by
  intro h
  have hlate := h (crowded 30) (crowd 30) {} (crowded_exhausts 30)
  rw [ClockedHost.stop_now (by decide) (crowded_exhausts 30)] at hlate
  revert hlate
  decide +kernel

end Phi.Host
