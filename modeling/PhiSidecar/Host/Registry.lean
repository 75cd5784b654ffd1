import PhiSidecar.Host.Lifecycle

/-!
# Who owns an instance (`sidecar.cpp`: `createInstanceRuntime`, `stopAndDestroyInstance`)

The functions of `Host.Lifecycle` with the pointers that they move: `m_instances` maps an external id
to an `InstanceRuntime`, which owns an instance and its backend. A pointer is the number of what it
points to, or none. `created`, `started`, `running` and the rest of the state are ghosts: what has
become of every instance and backend. The functions of the factory return, with an object or without.

* `Lifecycle.refines`: what the functions of `Host.Lifecycle` do to their registry is what these do.
* `run_owned`: **in every reachable state every entry of the registry owns a started instance that was
  created for its key, and a running backend; there are at most `maxInstances`; and every instance that
  was ever created is in the registry, or was destroyed, or leaked after its backend did not stop,
  exactly one of these and once. A failed creation leaves the registry as it was**.
-/

set_option autoImplicit false

namespace Phi.Host

open Phi.V1 Phi.Wire Phi.Dispatcher

/-- `InstanceRuntime`. -/
structure InstanceRuntime where
  externalId : ExternalId := []
  instance? : Option Nat := none
  execution? : Option Nat := none

structure Registry where
  /-- `m_instances`. -/
  instances : List (ExternalId × Option InstanceRuntime) := []
  /-- What `createInstance` was called with, for each instance it returned. -/
  created : List ExternalId := []
  /-- Instances whose `start()` was seen to return true. -/
  started : List Nat := []
  /-- The instance that each backend was created for. -/
  backends : List Nat := []
  /-- Backends between a `start` that succeeded and a `stop`. -/
  running : List Nat := []
  /-- Backends whose `stop` returned false. -/
  forced : List Nat := []
  /-- What `destroyInstance` was called with. -/
  destroyed : List Nat := []
  leaked : List Nat := []

namespace Registry

def findRuntime (s : Registry) (externalId : ExternalId) : Option InstanceRuntime :=
  (s.instances.lookup externalId).join

/-- `hostDestroyInstance`. -/
def destroyInstance (s : Registry) (instance? : Option Nat) : Registry :=
  { s with destroyed := s.destroyed ++ instance?.toList }

/-- `stop` of a backend. -/
def stopBackend (s : Registry) (execution : Nat) (answer : Except Utf8String Unit) : Registry :=
  { s with running := s.running.erase execution
           forced := s.forced ++ if Lifecycle.isOk answer then [] else [execution] }

/-- A failed start: the backend is stopped if there is one, and the instance handed back. -/
def rollback (s : Registry) (runtime : InstanceRuntime) (answer : Except Utf8String Unit) : Registry :=
  match runtime.execution? with
  | none => s.destroyInstance runtime.instance?
  | some execution => (s.stopBackend execution answer).destroyInstance runtime.instance?

/-- `createInstanceRuntime` from the call of `hostCreateInstanceExecutionBackend` on. -/
def createRuntime (s : Registry) (externalId : ExternalId) (a : CreateAnswers)
    (createdInstance : Nat) : Registry × Except Utf8String Unit :=
  if !a.executionCreated then
    (s.destroyInstance (some createdInstance),
      .error (lit "Factory createInstanceExecutionBackend returned null"))
  else
    let execution := s.backends.length
    let s := { s with backends := s.backends ++ [createdInstance] }
    match a.start with
    | .error backendError =>
      (s.destroyInstance (some createdInstance),
        .error (lit "Failed to start instance execution backend: " ++ backendError))
    | .ok () =>
      let s := { s with running := s.running ++ [execution] }
      let runtime : InstanceRuntime :=
        { externalId, instance? := some createdInstance, execution? := some execution }
      match a.execute with
      | .error backendError =>
        (s.rollback runtime a.stop,
          .error (lit "Failed to schedule instance start on execution backend: " ++ backendError))
      | .ok () =>
        match a.started with
        | none =>
          (s.rollback runtime a.stop,
            .error (lit "Timed out waiting for instance start completion for externalId='" ++
              externalId ++ lit "'"))
        | some false =>
          (s.rollback runtime a.stop,
            .error (lit "Instance start() failed for externalId='" ++ externalId ++ lit "'"))
        | some true =>
          let s := { s with started := s.started ++ [createdInstance] }
          -- `try_emplace` finds an entry without a runtime too
          if (s.instances.lookup externalId).isSome then
            (s.rollback runtime a.stop, .error (lit "Instance runtime already exists"))
          else ({ s with instances := s.instances ++ [(externalId, some runtime)] }, .ok ())

def createInstanceRuntime (s : Registry) (request : ConfigChangedRequest) (a : CreateAnswers) :
    Registry × Except Utf8String Unit :=
  let externalId := request.adapter.externalId
  if externalId = [] then (s, .error (lit "externalId is required"))
  else if (s.findRuntime externalId).isSome then (s, .ok ())
  else if 0 < a.maxInstances.toInt ∧ a.maxInstances.toInt ≤ s.instances.length then
    (s, .error (lit "maxInstances reached"))
  else if !a.instanceCreated then (s, .error (lit "Factory createInstance returned null"))
  else
    { s with created := s.created ++ [externalId] }.createRuntime externalId a s.created.length

/-- `ensureInstance`. -/
def ensureInstance (s : Registry) (request : ConfigChangedRequest) (a : CreateAnswers) : Registry :=
  if request.adapter.externalId = [] then s
  else if (s.findRuntime request.adapter.externalId).isSome then s
  else (s.createInstanceRuntime request a).1

def stopAndDestroyInstance (s : Registry) (externalId : ExternalId) (a : StopAnswers) : Registry :=
  match s.instances.lookup externalId with
  | none => s
  | some runtime =>
    let s := { s with instances := s.instances.filter (·.1 ≠ externalId) }
    match runtime with
    | none => s
    | some runtime =>
      match runtime.execution? with
      | none => s.destroyInstance runtime.instance?
      | some execution =>
        let s := s.stopBackend execution a.stop
        if Lifecycle.isOk a.stop then s.destroyInstance runtime.instance?
        else { s with leaked := s.leaked ++ runtime.instance?.toList }

def instanceRemoved (s : Registry) (externalId : ExternalId) (a : StopAnswers) : Registry :=
  if externalId = [] then s else s.stopAndDestroyInstance externalId a

def stopAndDestroyInstances (s : Registry) (answers : List (ExternalId × Int × StopAnswers)) :
    Registry := answers.foldl (fun s a => s.stopAndDestroyInstance a.1 a.2.2) s

/-- One handled message, or `stop`. -/
def step (s : Registry) : LifecycleAct → Option Registry
  | .configChanged request answers _ => some (s.ensureInstance request answers)
  | .instanceRemoved externalId answers => some (s.instanceRemoved externalId answers)
  | .stop answers =>
    if (answers.map Prod.fst).isPerm (s.instances.map Prod.fst) then
      some (s.stopAndDestroyInstances answers)
    else none

def machine : Lts.Machine Registry LifecycleAct := ⟨step⟩

/-! ## The invariant -/

/-- The instances in the registry. -/
def hosted (s : Registry) : List Nat := s.instances.filterMap fun p => p.2.bind (·.instance?)

/-- An entry of the registry with everything that it should own. -/
structure Owns (s : Registry) (key : ExternalId) (runtime : Option InstanceRuntime) (i execution : Nat) :
    Prop where
  runtime : runtime = some ⟨key, some i, some execution⟩
  nonempty : key ≠ []
  createdFor : s.created[i]? = some key
  started : i ∈ s.started
  backend : s.backends[execution]? = some i
  running : execution ∈ s.running

/-- With at most `max` instances, if `max` is positive. -/
structure Valid (max : Int) (s : Registry) : Prop where
  entry : ∀ p ∈ s.instances, ∃ i execution, s.Owns p.1 p.2 i execution
  keys : (s.instances.map Prod.fst).Nodup
  bound : 0 < max → s.instances.length ≤ max
  /-- Every instance is in one place, once. -/
  single : (s.hosted ++ s.destroyed ++ s.leaked).Perm (List.range s.created.length)
  forced : ∀ i ∈ s.leaked, ∃ execution ∈ s.forced, s.backends[execution]? = some i
  running : ∀ execution ∈ s.running, execution < s.backends.length
  nodup : s.running.Nodup

variable {s t : Registry} {max : Int}

theorem Valid.init : Valid max {} where
  entry := by simp
  keys := List.nodup_nil
  bound h := Int.le_of_lt h
  single := List.Perm.refl []
  forced := by simp
  running := by simp
  nodup := List.nodup_nil

theorem get_prefix {α : Type} {l l' : List α} {k : Nat} {x : α} (h : l <+: l') (hk : l[k]? = some x) :
    l'[k]? = some x := by
  obtain ⟨r, rfl⟩ := h
  exact (List.getElem?_append_left (List.getElem?_eq_some_iff.1 hk).1).trans hk

theorem Owns.mono {key : ExternalId} {runtime : Option InstanceRuntime} {i execution : Nat}
    (h : s.Owns key runtime i execution) (hc : s.created <+: t.created)
    (hs : s.started ⊆ t.started) (hb : s.backends <+: t.backends)
    (hr : execution ∈ t.running) : t.Owns key runtime i execution where
  runtime := h.runtime
  nonempty := h.nonempty
  createdFor := get_prefix hc h.createdFor
  started := hs h.started
  backend := get_prefix hb h.backend
  running := hr

/-! ## Creation -/

/-- A creation of the instance `i` that has failed. -/
structure Failed (s : Registry) (i : Nat) (t : Registry) : Prop where
  instances : t.instances = s.instances
  created : t.created = s.created
  started : s.started ⊆ t.started
  backends : s.backends <+: t.backends
  running : t.running = s.running
  forced : s.forced ⊆ t.forced
  destroyed : t.destroyed = s.destroyed ++ [i]
  leaked : t.leaked = s.leaked

/-- The rollback of a backend that has just been started. -/
theorem Failed.rollback {i : Nat} (hs : ∀ e ∈ s.running, e < s.backends.length) (key : ExternalId)
    (answer : Except Utf8String Unit) (started : List Nat) (hst : s.started ⊆ started) :
    Failed s i (rollback { s with
        started := started, backends := s.backends ++ [i], running := s.running ++ [s.backends.length] }
      ⟨key, some i, some s.backends.length⟩ answer) where
  instances := rfl
  created := rfl
  started := hst
  backends := List.prefix_append _ _
  running := by
    have hfresh : s.backends.length ∉ s.running := fun h => Nat.lt_irrefl _ (hs _ h)
    simp [Registry.rollback, stopBackend, Registry.destroyInstance, List.erase_append_right _ hfresh]
  forced := List.subset_append_left _ _
  destroyed := rfl
  leaked := rfl

theorem createRuntime_cases {i : Nat} (hs : ∀ e ∈ s.running, e < s.backends.length) (key : ExternalId)
    (a : CreateAnswers) :
    ((∃ error, (s.createRuntime key a i).2 = .error error) ∧ Failed s i (s.createRuntime key a i).1) ∨
      s.instances.lookup key = none ∧ s.createRuntime key a i =
        ({ s with
            instances := s.instances ++ [(key, some ⟨key, some i, some s.backends.length⟩)]
            started := s.started ++ [i]
            backends := s.backends ++ [i]
            running := s.running ++ [s.backends.length] }, .ok ()) := by
  unfold createRuntime
  cases a.executionCreated with
  | false =>
    exact .inl ⟨⟨_, rfl⟩, rfl, rfl, List.Subset.refl _, List.prefix_refl _, rfl, List.Subset.refl _, rfl, rfl⟩
  | true =>
    cases a.start with
    | error e =>
      exact .inl ⟨⟨_, rfl⟩, rfl, rfl, List.Subset.refl _, List.prefix_append _ _, rfl, List.Subset.refl _,
        rfl, rfl⟩
    | ok u =>
      cases a.execute with
      | error e => exact .inl ⟨⟨_, rfl⟩, .rollback hs key _ _ (List.Subset.refl _)⟩
      | ok u =>
        cases a.started with
        | none => exact .inl ⟨⟨_, rfl⟩, .rollback hs key _ _ (List.Subset.refl _)⟩
        | some ok =>
          cases ok with
          | false => exact .inl ⟨⟨_, rfl⟩, .rollback hs key _ _ (List.Subset.refl _)⟩
          | true =>
            cases hl : s.instances.lookup key with
            | some r =>
              refine .inl ?_
              simp only [hl, Option.isSome_some, if_true, Bool.not_true, Bool.false_eq_true, if_false]
              exact ⟨⟨_, rfl⟩, .rollback hs key _ _ (List.subset_append_left _ _)⟩
            | none =>
              refine .inr ⟨rfl, ?_⟩
              simp [hl]

/-- The place of a new instance: the registry, or the hands of `destroyInstance`. -/
theorem range_succ_perm {l : List Nat} {n : Nat} (h : l.Perm (List.range n)) :
    (l ++ [n]).Perm (List.range (n + 1)) := by
  rw [List.range_succ]
  exact h.append_right [n]

theorem Valid.failed {key : ExternalId} (hs : s.Valid max)
    (hf : Failed { s with created := s.created ++ [key] } s.created.length t) : t.Valid max where
  entry := by
    intro p hp
    rw [hf.instances] at hp
    obtain ⟨i, e, h⟩ := hs.entry p hp
    refine ⟨i, e, h.mono ?_ hf.started hf.backends ?_⟩
    · rw [hf.created]
      exact List.prefix_append _ _
    · rw [hf.running]
      exact h.running
  keys := by
    rw [hf.instances]
    exact hs.keys
  bound := by
    rw [hf.instances]
    exact hs.bound
  single := by
    have hhosted : t.hosted = s.hosted := congrArg (List.filterMap _) hf.instances
    have hlen : t.created.length = s.created.length + 1 := by
      rw [hf.created]
      exact List.length_append
    rw [hhosted, hlen, hf.destroyed, hf.leaked]
    refine .trans ?_ (range_succ_perm hs.single)
    -- the new number moves from behind the destroyed ones to the end
    simp only [List.append_assoc]
    exact (List.perm_append_comm.append_left s.destroyed).append_left s.hosted
  forced := by
    intro i hi
    rw [hf.leaked] at hi
    obtain ⟨e, he, hb⟩ := hs.forced i hi
    exact ⟨e, hf.forced he, get_prefix hf.backends hb⟩
  running := by
    intro e he
    rw [hf.running] at he
    exact Nat.lt_of_lt_of_le (hs.running e he) hf.backends.length_le
  nodup := by
    rw [hf.running]
    exact hs.nodup

theorem Valid.registered {key : ExternalId} (hs : s.Valid max) (hkey : key ≠ [])
    (hnew : s.instances.lookup key = none) (hroom : 0 < max → (s.instances.length : Int) < max) :
    Valid max { s with
      created := s.created ++ [key]
      instances := s.instances ++
        [(key, some ⟨key, some s.created.length, some s.backends.length⟩)]
      started := s.started ++ [s.created.length]
      backends := s.backends ++ [s.created.length]
      running := s.running ++ [s.backends.length] } where
  entry := by
    intro p hp
    rcases List.mem_append.1 hp with hp | hp
    · obtain ⟨i, e, h⟩ := hs.entry p hp
      exact ⟨i, e, h.mono (List.prefix_append _ _) (List.subset_append_left _ _)
        (List.prefix_append _ _) (List.mem_append_left _ h.running)⟩
    · rw [List.mem_singleton.1 hp]
      exact ⟨s.created.length, s.backends.length, rfl, hkey, by simp, by simp, by simp, by simp⟩
  keys := by
    rw [List.map_append, List.nodup_append]
    refine ⟨hs.keys, List.nodup_singleton _, ?_⟩
    intro k hk k' hk' he
    rw [List.map_singleton, List.mem_singleton] at hk'
    obtain ⟨p, hp, rfl⟩ := List.mem_map.1 hk
    have := List.lookup_eq_none_iff.1 hnew p hp
    simp [he, hk'] at this
  bound := by
    intro h
    have := hroom h
    rw [List.length_append, List.length_singleton]
    omega
  single := by
    have hhosted : ∀ p : ExternalId × Option InstanceRuntime, ∀ i, p.2.bind (·.instance?) = some i →
        (s.instances ++ [p]).filterMap (fun p => p.2.bind (·.instance?)) = s.hosted ++ [i] := by
      intro p i hi
      simp [hosted, hi]
    simp only [hosted]
    rw [hhosted _ s.created.length rfl, List.length_append, List.length_singleton]
    refine .trans ?_ (range_succ_perm hs.single)
    simp only [List.append_assoc]
    rw [← List.append_assoc s.destroyed]
    exact List.perm_append_comm.append_left s.hosted
  forced := by
    intro i hi
    obtain ⟨e, he, hb⟩ := hs.forced i hi
    exact ⟨e, he, get_prefix (List.prefix_append _ _) hb⟩
  running := by
    intro e he
    rw [List.length_append, List.length_singleton]
    rcases List.mem_append.1 he with he | he
    · exact Nat.lt_succ_of_lt (hs.running e he)
    · rw [List.mem_singleton.1 he]
      exact Nat.lt_succ_self _
  nodup := by
    rw [List.nodup_append]
    refine ⟨hs.nodup, List.nodup_singleton _, ?_⟩
    intro e he e' he' heq
    rw [List.mem_singleton] at he'
    exact Nat.lt_irrefl _ (he' ▸ heq ▸ hs.running e he)

/-- What the registry finds. -/
theorem Valid.owns (hs : s.Valid max) {key : ExternalId} {runtime : Option InstanceRuntime}
    (h : s.instances.lookup key = some runtime) : ∃ i e, s.Owns key runtime i e := by
  obtain ⟨l, r, hr, -⟩ := List.lookup_eq_some_iff.1 h
  exact hs.entry (key, runtime) (by simp [hr])

theorem Valid.lookup_none (hs : s.Valid max) {key : ExternalId} (h : ¬(s.findRuntime key).isSome) :
    s.instances.lookup key = none := by
  rw [findRuntime] at h
  cases hl : s.instances.lookup key with
  | none => rfl
  | some runtime =>
    obtain ⟨i, e, hown⟩ := hs.owns hl
    rw [hl, hown.runtime] at h
    exact absurd rfl h

/-- **A creation keeps the invariant, and a failed one the registry**. -/
theorem createInstanceRuntime_valid {request : ConfigChangedRequest} {a : CreateAnswers}
    (hs : s.Valid max) (hmax : 0 < max → a.maxInstances.toInt = max) :
    (s.createInstanceRuntime request a).1.Valid max ∧
      ∀ error, (s.createInstanceRuntime request a).2 = .error error →
        (s.createInstanceRuntime request a).1.instances = s.instances := by
  unfold createInstanceRuntime
  dsimp only
  split_ifs with hkey hfound hfull hcreated
  · exact ⟨hs, fun _ _ => rfl⟩
  · exact ⟨hs, fun _ _ => rfl⟩
  · exact ⟨hs, fun _ _ => rfl⟩
  · exact ⟨hs, fun _ _ => rfl⟩
  · have hrunning : ∀ e ∈ s.running, e < s.backends.length := hs.running
    rcases createRuntime_cases (s := { s with created := s.created ++ [request.adapter.externalId] })
      (i := s.created.length) hrunning request.adapter.externalId a with ⟨-, hf⟩ | ⟨hnew, he⟩
    · exact ⟨hs.failed hf, fun _ _ => hf.instances⟩
    · rw [he]
      refine ⟨hs.registered hkey hnew ?_, fun error herr => by cases herr⟩
      intro hpos
      rw [hmax hpos] at hfull
      by_contra hge
      exact hfull ⟨hpos, Int.not_lt.1 hge⟩

/-! ## Removal -/

/-- With distinct keys, an entry is what its key selects. -/
theorem filter_key {l : List (ExternalId × Option InstanceRuntime)} (hl : (l.map Prod.fst).Nodup)
    {key : ExternalId} {runtime : Option InstanceRuntime} (h : l.lookup key = some runtime) :
    l.Perm ((key, runtime) :: l.filter (·.1 ≠ key)) := by
  obtain ⟨l₁, l₂, rfl, hnone⟩ := List.lookup_eq_some_iff.1 h
  rw [List.map_append, List.map_cons, List.nodup_append, List.nodup_cons] at hl
  obtain ⟨-, ⟨hnot, -⟩, -⟩ := hl
  have h₁ : l₁.filter (·.1 ≠ key) = l₁ := by
    refine List.filter_eq_self.2 fun p hp => ?_
    have hne : p.1 ≠ key := fun he => by
      have := hnone p hp
      simp [he] at this
    simpa using hne
  have h₂ : l₂.filter (·.1 ≠ key) = l₂ := by
    refine List.filter_eq_self.2 fun p hp => ?_
    have hne : p.1 ≠ key := fun he => hnot (List.mem_map.2 ⟨p, hp, he⟩)
    simpa using hne
  rw [List.filter_append, List.filter_cons_of_neg (by simp), h₁, h₂]
  exact List.perm_middle

/-- The instance of an entry, and those of the others. -/
theorem Valid.hosted_remove {key : ExternalId} {runtime : Option InstanceRuntime} (hs : s.Valid max)
    (hl : s.instances.lookup key = some runtime) {i e : Nat} (hown : s.Owns key runtime i e)
    (hi : t.instances = s.instances.filter (·.1 ≠ key)) : s.hosted.Perm (i :: t.hosted) := by
  have hperm := (filter_key hs.keys hl).filterMap fun p => p.2.bind (·.instance?)
  rw [List.filterMap_cons_some (b := i) (by simp [hown.runtime]), ← hi] at hperm
  exact hperm

theorem Valid.hosted_nodup (hs : s.Valid max) : s.hosted.Nodup := by
  have h := hs.single.nodup_iff.2 List.nodup_range
  rw [List.append_assoc] at h
  exact (List.nodup_append.1 h).1

theorem Valid.hosted_not_destroyed (hs : s.Valid max) {i : Nat} (h : i ∈ s.hosted) :
    i ∉ s.destroyed := by
  have hn := hs.single.nodup_iff.2 List.nodup_range
  rw [List.append_assoc] at hn
  exact fun hd => (List.nodup_append.1 hn).2.2 i h i (List.mem_append_left _ hd) rfl

theorem Valid.lt_created (hs : s.Valid max) {i : Nat} (h : i ∈ s.hosted ∨ i ∈ s.destroyed) :
    i < s.created.length := by
  refine List.mem_range.1 (hs.single.mem_iff.1 ?_)
  rcases h with h | h
  · exact List.mem_append_left _ (List.mem_append_left _ h)
  · exact List.mem_append_left _ (List.mem_append_right _ h)

/-- What is left of the invariant while `i` and its backend are held outside the registry. -/
theorem Valid.remove {key : ExternalId} {runtime : Option InstanceRuntime} (hs : s.Valid max)
    (hl : s.instances.lookup key = some runtime) {i e : Nat} (hown : s.Owns key runtime i e)
    (hi : t.instances = s.instances.filter (·.1 ≠ key)) (hc : t.created = s.created)
    (hst : t.started = s.started) (hb : t.backends = s.backends) (hr : t.running = s.running.erase e)
    (hplace : (t.destroyed ++ t.leaked).Perm (i :: (s.destroyed ++ s.leaked)))
    (hforced : ∀ j ∈ t.leaked, ∃ e ∈ t.forced, s.backends[e]? = some j) : t.Valid max where
  entry := by
    intro p hp
    rw [hi, List.mem_filter] at hp
    obtain ⟨j, e', h⟩ := hs.entry p hp.1
    have hne : e' ≠ e := by
      -- one backend is of one instance, and one instance of one entry
      rintro rfl
      obtain rfl : j = i := Option.some.inj (h.backend.symm.trans hown.backend)
      have hkeys : p.1 = key := Option.some.inj (h.createdFor.symm.trans hown.createdFor)
      simp [hkeys] at hp
    refine ⟨j, e', h.mono (hc ▸ List.prefix_refl _) (hst ▸ List.Subset.refl _)
      (hb ▸ List.prefix_refl _) ?_⟩
    rw [hr]
    exact (List.mem_erase_of_ne hne).2 h.running
  keys := by
    rw [hi]
    exact hs.keys.sublist (List.filter_sublist.map _)
  bound := by
    intro hpos
    have := hs.bound hpos
    have hle := List.length_filter_le (fun p : ExternalId × Option InstanceRuntime => p.1 ≠ key)
      s.instances
    rw [hi]
    omega
  single := by
    rw [hc, List.append_assoc]
    refine .trans ?_ hs.single
    rw [List.append_assoc]
    refine .trans (hplace.append_left t.hosted) ?_
    refine .trans List.perm_middle ?_
    exact (hs.hosted_remove hl hown hi).symm.append_right _
  forced := by
    intro j hj
    obtain ⟨e', he, hbe⟩ := hforced j hj
    exact ⟨e', he, hb ▸ hbe⟩
  running := by
    intro e' he
    rw [hr] at he
    rw [hb]
    exact hs.running e' (List.mem_of_mem_erase he)
  nodup := by
    rw [hr]
    exact hs.nodup.erase e

theorem stopAndDestroyInstance_valid (hs : s.Valid max) (key : ExternalId) (a : StopAnswers) :
    (s.stopAndDestroyInstance key a).Valid max := by
  unfold stopAndDestroyInstance
  cases hl : s.instances.lookup key with
  | none => exact hs
  | some runtime =>
    obtain ⟨i, e, hown⟩ := hs.owns hl
    obtain rfl := hown.runtime
    cases ha : a.stop with
    | ok u =>
      refine hs.remove hl hown rfl rfl rfl rfl rfl ?_ ?_
      · simp only [stopBackend, destroyInstance, Lifecycle.isOk, Option.toList_some, if_true,
          List.append_assoc]
        exact List.perm_middle
      · intro j hj
        obtain ⟨e', he, hb⟩ := hs.forced j hj
        exact ⟨e', List.mem_append_left _ he, hb⟩
    | error error =>
      refine hs.remove hl hown rfl rfl rfl rfl rfl ?_ ?_
      · simp only [stopBackend, Lifecycle.isOk, Option.toList_some, Bool.false_eq_true, if_false,
          ← List.append_assoc]
        exact List.perm_append_comm
      · intro j hj
        rcases List.mem_append.1 hj with hj | hj
        · obtain ⟨e', he, hb⟩ := hs.forced j hj
          exact ⟨e', List.mem_append_left _ he, hb⟩
        · rw [Option.toList_some, List.mem_singleton] at hj
          rw [hj]
          exact ⟨e, List.mem_append_right _ (by simp [Lifecycle.isOk]), hown.backend⟩

/-! ## Every run -/

/-- `descriptor().maxInstances` is constant. -/
def MaxInstances (max : Int) : LifecycleAct → Prop
  | .configChanged _ answers _ => answers.maxInstances.toInt = max
  | .instanceRemoved _ _ | .stop _ => True

theorem step_valid {act : LifecycleAct} (hs : s.Valid max) (hmax : 0 < max → MaxInstances max act)
    (h : s.step act = some t) : t.Valid max := by
  cases act with
  | configChanged request a execute =>
    cases h
    unfold ensureInstance
    split_ifs
    · exact hs
    · exact hs
    · exact (createInstanceRuntime_valid hs hmax).1
  | instanceRemoved key a =>
    cases h
    unfold instanceRemoved
    split_ifs
    · exact hs
    · exact stopAndDestroyInstance_valid hs key a
  | stop answers =>
    obtain ⟨-, h⟩ := Option.ite_none_right_eq_some.1 h
    cases h
    unfold stopAndDestroyInstances
    clear * - hs
    induction answers generalizing s with
    | nil => exact hs
    | cons a answers ih => exact ih (stopAndDestroyInstance_valid hs a.1 a.2.2)

theorem run_valid {acts : List LifecycleAct} (hmax : ∀ act ∈ acts, MaxInstances max act)
    (h : machine.run {} acts = some s) : s.Valid max := by
  have hok : machine.Along (fun _ act => MaxInstances max act) {} acts :=
    Lts.Machine.along_of_forall (fun act ha _ => hmax act ha) _
  exact Lts.Machine.along_inv (I := Valid max) (fun _ _ _ hs hok h => step_valid hs (fun _ => hok) h) .init
    hok h

/-- **Single ownership.** With a constant `maxInstances`, in every reachable state: every entry of the
registry owns a started instance that was created for its key and a running backend; there are no more
than `maxInstances` of them, if it is positive; each instance that was ever created is in one place, the
registry, the calls of `destroyInstance` or the leaked ones, and there once; those that leaked belong to
a backend that did not stop; and a creation that fails leaves the registry as it was. -/
theorem run_owned {acts : List LifecycleAct} (hmax : ∀ act ∈ acts, MaxInstances max act)
    (h : machine.run {} acts = some s) :
    (∀ p ∈ s.instances, ∃ i execution, s.Owns p.1 p.2 i execution) ∧
      (s.instances.map Prod.fst).Nodup ∧ (0 < max → s.instances.length ≤ max) ∧
      (s.hosted ++ s.destroyed ++ s.leaked).Perm (List.range s.created.length) ∧
      (∀ i ∈ s.leaked, ∃ execution ∈ s.forced, s.backends[execution]? = some i) ∧
      ∀ (request : ConfigChangedRequest) (a : CreateAnswers) (error : Utf8String),
        (s.createInstanceRuntime request a).2 = .error error →
        (s.createInstanceRuntime request a).1.instances = s.instances := by
  have hs := run_valid hmax h
  have hany : s.Valid 0 := { hs with bound := fun h => absurd h (by decide) }
  refine ⟨hs.entry, hs.keys, hs.bound, hs.single, hs.forced, fun request a error herr => ?_⟩
  exact (createInstanceRuntime_valid hany fun h => absurd h (by decide)).2 error herr

/-- Two instances with room for one; the second is removed by force and the third fails to start. -/
theorem run_owned_leaked :
    let request (key : ExternalId) : ConfigChangedRequest := { adapter := { externalId := key } }
    let acts : List LifecycleAct :=
      [.configChanged (request [1]) { maxInstances := 1 } (.ok ()),
        .configChanged (request [2]) { maxInstances := 1 } (.ok ()),
        .instanceRemoved [1] { stop := .error [] },
        .configChanged (request [2]) { maxInstances := 1, started := none } (.ok ()),
        .configChanged (request [3]) { maxInstances := 1 } (.ok ())]
    ∃ s, machine.run {} acts = some s ∧ s.destroyed = [1] ∧ s.leaked = [0] ∧ s.hosted = [2] ∧
      (s.hosted ++ s.destroyed ++ s.leaked).Perm (List.range s.created.length) := by
  intro request acts
  have hrun : (machine.run {} acts).map (fun s => (s.destroyed, s.leaked, s.hosted)) =
      some ([1], [0], [2]) := by decide +kernel
  obtain ⟨s, hs, heq⟩ := Option.map_eq_some_iff.1 hrun
  simp only [Prod.mk.injEq] at heq
  have hmax : ∀ act ∈ acts, MaxInstances 1 act := by
    simp only [acts, List.mem_cons, List.not_mem_nil, or_false]
    rintro act (rfl | rfl | rfl | rfl | rfl) <;> first | exact trivial | rfl
  exact ⟨s, hs, heq.1, heq.2.1, heq.2.2, (run_owned hmax hs).2.2.2.1⟩

end Registry

/-! ## The registry of `Host.Lifecycle` -/

namespace Lifecycle

def destroyed? : Effect → Option Nat
  | .destroyInstance i => some i
  | _ => none

def leaked? : Effect → Option Nat
  | .leakInstance i => some i
  | _ => none

/-- The same instances in the same places, without the backends. -/
structure Abstracts (l : Lifecycle) (s : Registry) : Prop where
  instances : l.instances = s.instances.filterMap fun p => (p.2.bind (·.instance?)).map (p.1, ·)
  created : l.created = s.created.length
  destroyed : l.trace.filterMap destroyed? = s.destroyed
  leaked : l.trace.filterMap leaked? = s.leaked

variable {l : Lifecycle} {s : Registry}

theorem emit_findRuntime (l : Lifecycle) (e : Effect) (key : ExternalId) :
    (l.emit e).findRuntime key = l.findRuntime key := rfl

/-- An effect that moves no instance. -/
theorem Abstracts.emit (h : l.Abstracts s) {e : Effect} (hd : destroyed? e = none)
    (hl : leaked? e = none) : (l.emit e).Abstracts s where
  instances := h.instances
  created := h.created
  destroyed := by simp [Lifecycle.emit, hd, h.destroyed]
  leaked := by simp [Lifecycle.emit, hl, h.leaked]

theorem Abstracts.report (h : l.Abstracts s) (message : Utf8String) :
    (l.reportProtocolError message).Abstracts s := h.emit rfl rfl

theorem Abstracts.destroy (h : l.Abstracts s) (i : Nat) :
    (l.destroyInstance i).Abstracts (s.destroyInstance (some i)) where
  instances := h.instances
  created := h.created
  destroyed := by simp [Lifecycle.destroyInstance, Lifecycle.emit, Registry.destroyInstance,
    destroyed?, h.destroyed]
  leaked := by simp [Lifecycle.destroyInstance, Lifecycle.emit, Registry.destroyInstance, leaked?,
    h.leaked]

theorem Abstracts.leak (h : l.Abstracts s) (i : Nat) :
    (l.emit (.leakInstance i)).Abstracts { s with leaked := s.leaked ++ [i] } where
  instances := h.instances
  created := h.created
  destroyed := by simp [Lifecycle.emit, destroyed?, h.destroyed]
  leaked := by simp [Lifecycle.emit, leaked?, h.leaked]

theorem Abstracts.stop (h : l.Abstracts s) (i : Nat) (timeout : Int) (execution : Nat)
    (answer : Except Utf8String Unit) (text : Utf8String) :
    (l.stopBackend i timeout answer text).Abstracts (s.stopBackend execution answer) := by
  have hstop : (l.emit (.backendStop i timeout (isOk answer))).Abstracts
      (s.stopBackend execution answer) := by
    obtain ⟨h1, h2, h3, h4⟩ := h.emit (e := .backendStop i timeout (isOk answer)) rfl rfl
    exact ⟨h1, h2, h3, h4⟩
  unfold Lifecycle.stopBackend
  cases answer with
  | ok u => exact hstop
  | error e => exact hstop.report _

theorem Abstracts.rollback (h : l.Abstracts s) (i execution : Nat) (key : ExternalId)
    (answer : Except Utf8String Unit) (text : Utf8String) :
    (l.rollback i answer text).Abstracts (s.rollback ⟨key, some i, some execution⟩ answer) :=
  (h.stop i _ execution answer text).destroy i

/-- Ghosts of the registry that its abstraction does not have. -/
theorem Abstracts.ghost (h : l.Abstracts s) (started backends running : List Nat) :
    l.Abstracts { s with started := started, backends := backends, running := running } :=
  ⟨h.instances, h.created, h.destroyed, h.leaked⟩

theorem lookup_instances {ps : List (ExternalId × Option InstanceRuntime)} (key : ExternalId)
    (h : ∀ p ∈ ps, ∃ i, p.2.bind (·.instance?) = some i) :
    (ps.filterMap fun p => (p.2.bind (·.instance?)).map (p.1, ·)).lookup key =
      (ps.lookup key).bind fun runtime => runtime.bind (·.instance?) := by
  induction ps with
  | nil => rfl
  | cons p ps ih =>
    obtain ⟨i, hi⟩ := h p (.head _)
    rw [List.filterMap_cons_some (b := (p.1, i)) (by rw [hi]; rfl), List.lookup_cons, List.lookup_cons]
    split
    · exact hi.symm
    · exact ih fun q hq => h q (.tail _ hq)

/-- Both find the same instance. -/
theorem Abstracts.lookup {max : Int} (h : l.Abstracts s) (hs : s.Valid max) (key : ExternalId) :
    l.findRuntime key = (s.instances.lookup key).bind fun runtime => runtime.bind (·.instance?) := by
  rw [Lifecycle.findRuntime, h.instances]
  refine lookup_instances key fun p hp => ?_
  obtain ⟨i, e, hown⟩ := hs.entry p hp
  exact ⟨i, by rw [hown.runtime]; rfl⟩

theorem Abstracts.isSome {max : Int} (h : l.Abstracts s) (hs : s.Valid max) (key : ExternalId) :
    (l.findRuntime key).isSome = (s.instances.lookup key).isSome ∧
      (s.findRuntime key).isSome = (s.instances.lookup key).isSome := by
  rw [h.lookup hs, Registry.findRuntime]
  cases hl : s.instances.lookup key with
  | none => exact ⟨rfl, rfl⟩
  | some runtime =>
    obtain ⟨i, e, hown⟩ := hs.owns hl
    rw [hown.runtime]
    exact ⟨rfl, rfl⟩

theorem Abstracts.createRuntime (h : l.Abstracts s) (request : ConfigChangedRequest)
    (hnew : (l.findRuntime request.adapter.externalId).isSome =
      (s.instances.lookup request.adapter.externalId).isSome) (a : CreateAnswers) (i : Nat) :
    let r := l.createRuntime request a i
    let t := s.createRuntime request.adapter.externalId a i
    r.1.Abstracts t.1 ∧ r.2 = t.2 := by
  intro r t
  simp only [r, t, Lifecycle.createRuntime, Registry.createRuntime]
  have h1 := h.emit (e := .createInstance i request.adapter.externalId) rfl rfl
  cases a.executionCreated with
  | false => exact ⟨h1.destroy i, rfl⟩
  | true =>
    have h2 := h1.emit (e := .backendStart i) rfl rfl
    cases a.start with
    | error e => exact ⟨(h2.ghost s.started (s.backends ++ [i]) s.running).destroy i, rfl⟩
    | ok u =>
      have h3 := (h2.emit (e := .bindContext i request.adapterId request.adapter.pluginType
        request.adapter.externalId) rfl rfl).emit (e := .backendExecute i .start) rfl rfl
      have h4 := h3.ghost s.started (s.backends ++ [i]) (s.running ++ [s.backends.length])
      have h5 := h3.ghost (s.started ++ [i]) (s.backends ++ [i]) (s.running ++ [s.backends.length])
      cases a.execute with
      | error e => exact ⟨h4.rollback i _ _ _ _, rfl⟩
      | ok u =>
        cases a.started with
        | none => exact ⟨h4.rollback i _ _ _ _, rfl⟩
        | some ok =>
          cases ok with
          | false => exact ⟨h4.rollback i _ _ _ _, rfl⟩
          | true =>
            cases hl : (s.instances.lookup request.adapter.externalId).isSome with
            | true =>
              simp only [Bool.not_true, Bool.false_eq_true, if_false, emit_findRuntime, hnew, hl, if_true]
              exact ⟨(h5.emit (e := .backendExecute i .stop) rfl rfl).rollback i _ _ _ _, trivial⟩
            | false =>
              simp only [Bool.not_true, Bool.false_eq_true, if_false, emit_findRuntime, hnew, hl]
              refine ⟨⟨?_, h5.created, h5.destroyed, h5.leaked⟩, trivial⟩
              rw [List.filterMap_append, ← h.instances]
              rfl

theorem Abstracts.createInstanceRuntime {max : Int} (h : l.Abstracts s) (hs : s.Valid max)
    (request : ConfigChangedRequest) (a : CreateAnswers) :
    let r := l.createInstanceRuntime request a
    let t := s.createInstanceRuntime request a
    r.1.Abstracts t.1 ∧ r.2 = t.2 := by
  obtain ⟨hl, hr⟩ := h.isSome hs request.adapter.externalId
  have hlen : l.instances.length = s.instances.length := by
    rw [h.instances, List.filterMap_length_eq_length]
    intro p hp
    obtain ⟨i, e, hown⟩ := hs.entry p hp
    rw [hown.runtime]
    rfl
  intro r t
  simp only [r, t, Lifecycle.createInstanceRuntime, Registry.createInstanceRuntime, hl, hr, hlen]
  split_ifs
  · exact ⟨h, rfl⟩
  · exact ⟨h, rfl⟩
  · exact ⟨h, rfl⟩
  · exact ⟨h, rfl⟩
  · have hc : Abstracts { l with created := l.created + 1 }
        { s with created := s.created ++ [request.adapter.externalId] } := by
      refine ⟨h.instances, ?_, h.destroyed, h.leaked⟩
      rw [List.length_append, h.created]
      rfl
    rw [h.created] at hc ⊢
    exact hc.createRuntime request hl a s.created.length

theorem Abstracts.configChanged {max : Int} (h : l.Abstracts s) (hs : s.Valid max)
    (request : ConfigChangedRequest) (a : CreateAnswers) (execute : Except Utf8String Unit) :
    (l.configChanged request a execute).Abstracts (s.ensureInstance request a) := by
  obtain ⟨hl, hr⟩ := h.isSome hs request.adapter.externalId
  have hensure : (l.ensureInstance request a).1.Abstracts (s.ensureInstance request a) := by
    simp only [Lifecycle.ensureInstance, Registry.ensureInstance, hl, hr]
    split_ifs
    · exact h
    · exact h
    · obtain ⟨h1, -⟩ := h.createInstanceRuntime hs request a
      split
      · next he => rw [he] at h1; exact h1
      · next he => rw [he] at h1; exact h1.report _
  unfold Lifecycle.configChanged
  split
  · next he => rw [he] at hensure; exact hensure
  · next he =>
    rw [he] at hensure
    cases execute with
    | ok u => exact hensure.emit rfl rfl
    | error e => exact (hensure.emit rfl rfl).report _

theorem Abstracts.stopHook (h : l.Abstracts s) (key : ExternalId) (i : Nat) (stopBudget : Int)
    (a : StopAnswers) : (l.stopHook key i stopBudget a).Abstracts s := by
  have h2 := (h.emit (e := .requestStop i) rfl rfl).emit (e := .backendExecute i .stop) rfl rfl
  unfold Lifecycle.stopHook
  cases a.execute with
  | error e => exact h2.report _
  | ok u =>
    dsimp only
    split_ifs
    · exact h2
    · exact h2.report _

theorem filter_instances {ps : List (ExternalId × Option InstanceRuntime)} (key : ExternalId) :
    (ps.filterMap fun p => (p.2.bind (·.instance?)).map (p.1, ·)).filter (·.1 ≠ key) =
      (ps.filter (·.1 ≠ key)).filterMap fun p => (p.2.bind (·.instance?)).map (p.1, ·) := by
  rw [List.filter_filterMap, List.filterMap_filter]
  refine List.filterMap_congr fun p _ => ?_
  cases p.2.bind (·.instance?) with
  | none => simp
  | some i => by_cases hp : p.1 = key <;> simp [hp, Option.filter]

theorem Abstracts.stopAndDestroyInstance {max : Int} (h : l.Abstracts s) (hs : s.Valid max)
    (key : ExternalId) (budget : Int) (a : StopAnswers) :
    (l.stopAndDestroyInstance key budget a).Abstracts (s.stopAndDestroyInstance key a) := by
  have hlookup := h.lookup hs key
  unfold Lifecycle.stopAndDestroyInstance Registry.stopAndDestroyInstance
  cases hl : s.instances.lookup key with
  | none =>
    rw [hl] at hlookup
    rw [hlookup]
    exact h
  | some runtime =>
    obtain ⟨i, e, hown⟩ := hs.owns hl
    obtain rfl := hown.runtime
    rw [hl] at hlookup
    rw [show l.findRuntime key = some i from hlookup]
    have herase : Abstracts { l with instances := l.instances.filter (·.1 ≠ key) }
        { s with instances := s.instances.filter (·.1 ≠ key) } := by
      refine ⟨?_, h.created, h.destroyed, h.leaked⟩
      rw [h.instances]
      exact filter_instances key
    have hstop := (herase.stopHook key i (atLeastMinimumSlice (budget * 3 / 5)) a).stop i
      (atLeastMinimumSlice (budget - atLeastMinimumSlice (budget * 3 / 5))) e a.stop
      (lit "Execution backend stop timed out for externalId='" ++ key ++ lit "': ")
    dsimp only
    split_ifs
    · exact hstop.destroy i
    · exact (hstop.report _).leak i

theorem Abstracts.instanceRemoved {max : Int} (h : l.Abstracts s) (hs : s.Valid max)
    (key : ExternalId) (a : StopAnswers) :
    (l.instanceRemoved key a).Abstracts (s.instanceRemoved key a) := by
  unfold Lifecycle.instanceRemoved Registry.instanceRemoved
  split_ifs
  · exact h.report _
  · exact h.stopAndDestroyInstance hs key _ a

theorem Abstracts.stopAndDestroyInstances {max : Int} (h : l.Abstracts s) (hs : s.Valid max)
    (answers : List (ExternalId × Int × StopAnswers)) :
    (l.stopAndDestroyInstances answers).Abstracts (s.stopAndDestroyInstances answers) := by
  have hrequest : ∀ (f : Lifecycle → ExternalId × Int × StopAnswers → Lifecycle),
      (∀ l a, l.Abstracts s → (f l a).Abstracts s) → ∀ as : List (ExternalId × Int × StopAnswers),
      (as.foldl f l).Abstracts s :=
    fun f hf as => List.foldlRecOn as f h fun l hl a _ => hf l a hl
  have hstop : ∀ {l : Lifecycle} {s : Registry} (as : List (ExternalId × Int × StopAnswers)),
      l.Abstracts s → s.Valid max →
      (as.foldl (fun l a => l.stopAndDestroyInstance a.1 (atLeastMinimumSlice a.2.1) a.2.2) l).Abstracts
        (as.foldl (fun s a => s.stopAndDestroyInstance a.1 a.2.2) s) := by
    intro l s as h hs
    induction as generalizing l s with
    | nil => exact h
    | cons a as ih =>
      exact ih (h.stopAndDestroyInstance hs a.1 _ a.2.2)
        (Registry.stopAndDestroyInstance_valid hs a.1 a.2.2)
  refine hstop answers (hrequest _ (fun l a hl => ?_) answers) hs
  split
  · exact hl.emit rfl rfl
  · exact hl

/-- A run of the registry with its pointers is one of the registry in `Host.Lifecycle`. -/
theorem refines : Lts.Sim Registry.machine machine fun s l => s.Valid 0 ∧ l.Abstracts s := by
  rintro s act t l ⟨hs, h⟩ hstep
  have hvalid : t.Valid 0 := Registry.step_valid hs (fun h => absurd h (by decide)) hstep
  cases act with
  | configChanged request a execute =>
    cases hstep
    exact ⟨[.configChanged request a execute], _, rfl, hvalid, h.configChanged hs request a execute⟩
  | instanceRemoved key a =>
    cases hstep
    exact ⟨[.instanceRemoved key a], _, rfl, hvalid, h.instanceRemoved hs key a⟩
  | stop answers =>
    simp only [Registry.machine, Registry.step] at hstep
    split at hstep
    · next hperm =>
      cases hstep
      have hkeys : l.instances.map Prod.fst = s.instances.map Prod.fst := by
        rw [h.instances, List.map_filterMap, ← List.filterMap_eq_map]
        refine List.filterMap_congr fun p hp => ?_
        obtain ⟨i, e, hown⟩ := hs.entry p hp
        rw [hown.runtime]
        rfl
      refine ⟨[.stop answers], l.stopAndDestroyInstances answers, ?_, hvalid,
        h.stopAndDestroyInstances hs answers⟩
      rw [Lts.Machine.run_cons]
      simp only [machine, step, hkeys, hperm, if_true]
      rfl
    · cases hstep

end Lifecycle

end Phi.Host
