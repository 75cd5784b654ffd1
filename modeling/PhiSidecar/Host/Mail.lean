import PhiSidecar.Host.HookOrder
import PhiSidecar.Lib.PostOffice

/-!
# The host as a post office

What the host thread schedules on its instances, seen as mail: an external id is an address, an
instance in the registry its open box. `Files` relates the two; `files_step` is one step of the
refinement: what the host does with a message is what the post office does with a letter, and with
nothing else.
-/

set_option autoImplicit false

namespace Phi.Host

open Phi.V1 Phi.Wire Phi.Dispatcher PostOffice

/-- The letter that the host holds back while the instance for it starts. -/
def Wait.mail : Wait → List (ExternalId × Task)
  | .starting request _ | .rollback request _ =>
    [(request.adapter.externalId, .hook (.onConfigChanged request))]
  | .idle | .stopping _ _ | .joining _ _ => []

/-- The letter that the host thread is handed. -/
def HookAct.mail : HookAct → List (ExternalId × Task)
  | .configChanged request _ => [(request.adapter.externalId, .hook (.onConfigChanged request))]
  | .dispatch externalId task => [(externalId, task)]
  | _ => []

instance (task : Task) : Decidable task.IsOther := inferInstanceAs (Decidable (_ ∧ _))

/-- The hooks that are neither `start()` nor `stop()`. -/
def otherTasks (tasks : List Task) : List Task := tasks.filter fun task => task.IsOther

theorem otherTasks_snoc (tasks : List Task) {task : Task} (h : task.IsOther) :
    otherTasks (tasks ++ [task]) = otherTasks tasks ++ [task] := by
  simp [otherTasks, h]

theorem otherTasks_stop (tasks : List Task) : otherTasks (tasks ++ [.stop]) = otherTasks tasks := by
  simp [otherTasks, Task.IsOther]

namespace Registry

variable {r : Registry}

/-- The instances with the external ids that they serve. -/
def boxes (r : Registry) : List (ExternalId × Nat) :=
  r.instances.filterMap fun p => (p.2.bind (·.instance?)).map (p.1, ·)

theorem boxes_snd : r.boxes.map Prod.snd = r.hosted := by
  rw [boxes, List.map_filterMap, hosted]
  refine List.filterMap_congr fun p _ => ?_
  cases p.2.bind (·.instance?) <;> rfl

theorem boxes_lookup (h : r.Valid 0) (key : ExternalId) :
    r.boxes.lookup key = (r.findRuntime key).bind (·.instance?) := by
  have hentry : ∀ p ∈ r.instances, ∃ i, p.2.bind (·.instance?) = some i := by
    intro p hp
    obtain ⟨i, e, hown⟩ := h.entry p hp
    exact ⟨i, by rw [hown.runtime]; rfl⟩
  unfold boxes findRuntime
  generalize r.instances = l at hentry
  induction l with
  | nil => rfl
  | cons p l ih =>
    obtain ⟨i, hi⟩ := hentry p (.head _)
    rw [List.filterMap_cons_some (b := (p.1, i)) (by rw [hi]; rfl), List.lookup_cons, List.lookup_cons]
    split
    · rw [Option.join_some, hi]
    · exact ih fun q hq => hentry q (.tail _ hq)

/-- The registry forgets an external id. -/
theorem boxes_filter (r : Registry) (key : ExternalId) :
    r.boxes.filter (·.1 != key) =
      (r.instances.filter (·.1 ≠ key)).filterMap fun p => (p.2.bind (·.instance?)).map (p.1, ·) := by
  rw [boxes, List.filter_filterMap, List.filterMap_filter]
  refine List.filterMap_congr fun p _ => ?_
  by_cases hk : p.1 = key <;> cases p.2.bind (·.instance?) <;> simp [hk]

end Registry

namespace TimedHost

variable {s t : TimedHost} {r : Registry} {request : ConfigChangedRequest} {a : CreateAnswers}

theorem ensureInstance_opens (hr : r.Valid 0) (h : startsBackend r request a = true)
    (he : a.execute = .ok ()) (hs : a.started = some true) :
    (r.ensureInstance request a).boxes = r.boxes ++ [(request.adapter.externalId, r.created.length)] := by
  obtain ⟨-, h2, -, -, h5, h6⟩ := startsBackend_iff.1 h
  have hnone : r.instances.lookup request.adapter.externalId = none := hr.lookup_none (by simp [h2])
  rw [ensureInstance_eq h]
  simp [Registry.createRuntime, h5, h6, he, hs, hnone, Registry.boxes]

theorem ensureInstance_keeps_rollback (h : startsBackend r request a = true)
    (he : a.execute = .ok ()) (hs : a.started ≠ some true) :
    (r.ensureInstance request a).boxes = r.boxes := by
  obtain ⟨-, -, -, -, h5, h6⟩ := startsBackend_iff.1 h
  rw [ensureInstance_eq h]
  match hst : a.started, hs with
  | none, _ | some false, _ =>
    simp [Registry.createRuntime, h5, h6, he, hst, Registry.boxes, Registry.rollback,
      Registry.stopBackend, Registry.destroyInstance]

theorem ensureInstance_keeps_failed (hf : r.findRuntime request.adapter.externalId = none)
    (h : startsBackend r request a = false) : (r.ensureInstance request a).boxes = r.boxes := by
  unfold Registry.ensureInstance
  simp only [hf, Option.isSome_none, Bool.false_eq_true, if_false]
  split_ifs with h1
  · rfl
  · simp only [Registry.createInstanceRuntime, if_neg h1, hf, Option.isSome_none, Bool.false_eq_true,
      if_false]
    split_ifs with h3 h4
    · rfl
    · rfl
    · cases h5 : a.executionCreated with
      | false => simp [Registry.createRuntime, h5, Registry.destroyInstance, Registry.boxes]
      | true =>
        cases h6 : a.start with
        | error e => simp [Registry.createRuntime, h5, h6, Registry.destroyInstance, Registry.boxes]
        | ok u =>
          exact absurd (startsBackend_iff.2 ⟨h1, hf, h3, by simpa using h4, h5, h6⟩) (by simp [h])

theorem stopAndDestroyInstance_closes (hr : r.Valid 0) {key : ExternalId} {i : Nat}
    (hi : (r.findRuntime key).bind (·.instance?) = some i) (answer : Except Utf8String Unit) :
    (r.stopAndDestroyInstance key { stop := answer }).boxes = r.boxes.filter (·.1 != key) := by
  rw [Registry.boxes_filter]
  cases hl : r.instances.lookup key with
  | none => simp [Registry.findRuntime, hl] at hi
  | some runtime =>
    obtain ⟨j, e, hown⟩ := hr.owns hl
    obtain rfl := hown.runtime
    cases answer <;> simp [Registry.stopAndDestroyInstance, hl, Registry.stopBackend,
      Registry.destroyInstance, Lifecycle.isOk, Registry.boxes]

/-! ## What is scheduled -/

@[simp] theorem executeOnRuntime_registry (s : TimedHost) (key : ExternalId) (task : Task) :
    (s.executeOnRuntime key task).registry = s.registry := by
  unfold TimedHost.executeOnRuntime
  split <;> rfl

@[simp] theorem executeOnRuntime_wait (s : TimedHost) (key : ExternalId) (task : Task) :
    (s.executeOnRuntime key task).wait = s.wait := by
  unfold TimedHost.executeOnRuntime
  split <;> rfl

theorem setThread_scheduled {i : Nat} {w : InstanceThread} (h : w.scheduled = (s.threads i).scheduled)
    (j : Nat) : ((s.setThread i w).threads j).scheduled = (s.threads j).scheduled := by
  by_cases hj : j = i
  · subst hj
    rw [setThread_self, h]
  · rw [setThread_ne hj]

theorem requestStop_scheduled (s : TimedHost) (i j : Nat) :
    ((s.requestStop i).threads j).scheduled = (s.threads j).scheduled := by
  apply setThread_scheduled
  rfl

theorem otherTasks_setThread {i : Nat} {w : InstanceThread}
    (h : otherTasks w.scheduled = otherTasks (s.threads i).scheduled) (j : Nat) :
    otherTasks ((s.setThread i w).threads j).scheduled = otherTasks (s.threads j).scheduled := by
  by_cases hj : j = i
  · subst hj
    rw [setThread_self, h]
  · rw [setThread_ne hj]

theorem execute_scheduled {i : Nat} (hw : (s.threads i).Serving) (task : Task) (j : Nat) :
    ((s.execute i task).threads j).scheduled =
      (s.threads j).scheduled ++ if j = i then [task] else [] := by
  unfold TimedHost.execute
  by_cases hj : j = i
  · subst hj
    rw [setThread_self, hw.execute_eq, if_pos rfl]
  · rw [setThread_ne hj, if_neg hj, List.append_nil]

theorem executeAll_scheduled {task : Task} (ht : task.IsOther) {l : List Nat} (hl : l.Nodup)
    (hw : ∀ i ∈ l, (s.threads i).Serving) (j : Nat) :
    ((l.foldl (fun s i => s.execute i task) s).threads j).scheduled =
      (s.threads j).scheduled ++ if j ∈ l then [task] else [] := by
  induction l generalizing s with
  | nil => simp
  | cons i l ih =>
    obtain ⟨hnot, hl⟩ := List.nodup_cons.1 hl
    obtain ⟨hi, hw⟩ := List.forall_mem_cons.1 hw
    have hserving : ∀ k ∈ l, ((s.execute i task).threads k).Serving := by
      intro k hk
      unfold TimedHost.execute
      by_cases hki : k = i
      · subst hki
        rw [setThread_self]
        exact hi.execute ht
      · rw [setThread_ne hki]
        exact hw k hk
    rw [List.foldl_cons, ih hl hserving, execute_scheduled hi, List.append_assoc]
    by_cases hj : j = i
    · subst hj
      simp [hnot]
    · simp [hj]

/-! ## The refinement -/

/-- The host as a post office. -/
structure Files (s : TimedHost) (p : PostOffice ExternalId Task) : Prop where
  owners : p.owners = s.registry.created
  current : p.current = s.registry.boxes
  mail : ∀ i, otherTasks (s.threads i).scheduled = contents p.log i
  sorted : p.Sorted

/-- The first thing in a box, if there is any, is the `config.changed` that its instance was created
for; there is something in the box of every instance in the registry. -/
structure Configured (s : TimedHost) (log : List (Entry ExternalId Task)) : Prop where
  first : ∀ i, contents log i = [] ∨ ∃ request rest,
    contents log i = .hook (.onConfigChanged request) :: rest ∧
      s.registry.created[i]? = some request.adapter.externalId
  begun : ∀ i ∈ s.registry.hosted, contents log i ≠ []

variable {p : PostOffice ExternalId Task} {key : ExternalId} {task : Task}

theorem run_one {q : PostOffice ExternalId Task} {a : PostOffice.Act ExternalId Task}
    (h : p.step a = some q) : (PostOffice.machine ExternalId Task).run p [a] = some q := by
  rw [Lts.Machine.run_cons, show (PostOffice.machine ExternalId Task).step p a = some q from h]
  rfl

theorem letters_snoc (log : List (Entry ExternalId Task)) (key : ExternalId) (task : Task)
    (box : Option Nat) : letters (log ++ [.letter key task box]) = letters log ++ [(key, task)] := by
  rw [letters, List.filterMap_append]
  rfl

theorem Files.init : Files {} {} where
  owners := rfl
  current := rfl
  mail _ := rfl
  sorted := .init

theorem Configured.init : Configured {} [] where
  first _ := .inl rfl
  begun := by simp [Registry.hosted]

theorem Files.box (hf : Files s p) (hi : s.Inv) (key : ExternalId) : p.box key = s.findInstance key := by
  rw [PostOffice.box, hf.current, Registry.boxes_lookup hi.valid]
  rfl

/-- Nothing but the threads has changed, and nothing in the boxes. -/
theorem Files.same (hf : Files s p) (hr : t.registry = s.registry)
    (ht : ∀ i, otherTasks (t.threads i).scheduled = otherTasks (s.threads i).scheduled) : Files t p :=
  ⟨by rw [hr]; exact hf.owners, by rw [hr]; exact hf.current, fun i => (ht i).trans (hf.mail i),
    hf.sorted⟩

theorem Configured.same {log : List (Entry ExternalId Task)} (hc : Configured s log)
    (hr : t.registry = s.registry) : Configured t log :=
  ⟨by rw [hr]; exact hc.first, by rw [hr]; exact hc.begun⟩

theorem findInstance_of_findRuntime (hi : s.Inv) (h : (s.registry.findRuntime key).isSome) :
    ∃ i, s.findInstance key = some i := by
  unfold TimedHost.findInstance
  unfold Registry.findRuntime at h ⊢
  cases hl : s.registry.instances.lookup key with
  | none => simp [hl] at h
  | some runtime =>
    obtain ⟨i, e, hown⟩ := hi.valid.owns hl
    exact ⟨i, by rw [hown.runtime]; rfl⟩

/-- `executeOnRuntime` is a letter. -/
theorem Files.dispatch (hf : Files s p) (hi : s.Inv) (hidle : s.wait = .idle) (key : ExternalId)
    (ht : task.IsOther) :
    ∃ q, p.step (.post key task) = some q ∧ Files (s.executeOnRuntime key task) q ∧
      q.log = p.log ++ [.letter key task (s.findInstance key)] := by
  refine ⟨_, rfl, ⟨?_, ?_, fun i => ?_, hf.sorted.step (a := .post key task) rfl⟩,
    by rw [hf.box hi]⟩
  · rw [executeOnRuntime_registry]
    exact hf.owners
  · rw [executeOnRuntime_registry]
    exact hf.current
  · rw [contents_snoc, ← hf.mail i, hf.box hi, executeOnRuntime]
    cases hk : s.findInstance key with
    | none => simp [Entry.mailIn]
    | some j =>
      have hserving := serving_of_idle hi hidle (findInstance_hosted hi hk)
      simp only [execute_scheduled hserving, Entry.mailIn, Option.some.injEq]
      by_cases hij : i = j
      · subst hij
        simp [otherTasks_snoc _ ht]
      · simp [hij, Ne.symm hij]

/-- `executeOnAllRuntimes` is a circular. -/
theorem Files.dispatchAll (hf : Files s p) (hi : s.Inv) (hidle : s.wait = .idle) (ht : task.IsOther) :
    ∃ q, p.step (.circulate task) = some q ∧ Files (s.executeOnAllRuntimes task) q ∧
      q.log = p.log ++ [.circular task s.registry.hosted] := by
  have hreg : (s.executeOnAllRuntimes task).registry = s.registry :=
    executeOnAllRuntimes_induct (P := fun t => t.registry = s.registry) rfl fun t i h _ _ => h
  refine ⟨_, rfl, ⟨?_, ?_, fun i => ?_, hf.sorted.step (a := .circulate task) rfl⟩,
    by rw [hf.current, Registry.boxes_snd]⟩
  · rw [hreg]
    exact hf.owners
  · rw [hreg]
    exact hf.current
  · rw [contents_snoc, ← hf.mail i, hf.current, Registry.boxes_snd, executeOnAllRuntimes,
      executeAll_scheduled ht hi.valid.hosted_nodup fun j hj => serving_of_idle hi hidle hj]
    by_cases hh : i ∈ s.registry.hosted
    · simp [hh, otherTasks_snoc _ ht, Entry.mailIn]
    · simp [hh, Entry.mailIn]

/-- More mail in the boxes of instances that have got their `config.changed`. -/
theorem Configured.enter {log : List (Entry ExternalId Task)} (hc : Configured s log)
    {e : Entry ExternalId Task} (he : ∀ i, e.Reaches i → i ∈ s.registry.hosted) :
    Configured s (log ++ [e]) := by
  refine ⟨fun i => ?_, fun i hi h => hc.begun i hi ?_⟩
  · rw [contents_snoc]
    cases hm : e.mailIn i with
    | none => simpa using hc.first i
    | some m =>
      have hhosted := he i (mailIn_isSome.1 (by rw [hm]; rfl))
      obtain hnil | ⟨request, rest, hfirst, howner⟩ := hc.first i
      · exact absurd hnil (hc.begun i hhosted)
      · exact .inr ⟨request, rest ++ [m], by rw [hfirst]; rfl, howner⟩
  · rw [contents_snoc, List.append_eq_nil_iff] at h
    exact h.1

theorem Configured.mono {log : List (Entry ExternalId Task)} (hc : Configured s log)
    (hcreated : s.registry.created <+: t.registry.created)
    (hhosted : ∀ i ∈ t.registry.hosted, i ∈ s.registry.hosted) : Configured t log := by
  refine ⟨fun i => ?_, fun i hi => hc.begun i (hhosted i hi)⟩
  obtain hnil | ⟨request, rest, hfirst, howner⟩ := hc.first i
  · exact .inl hnil
  · exact .inr ⟨request, rest, hfirst, Registry.get_prefix hcreated howner⟩

/-- A creation that has failed: its letter goes back. -/
theorem Files.fail (hf : Files s p) (hi : s.Inv) (hnone : s.findInstance key = none)
    (hboxes : t.registry.boxes = s.registry.boxes)
    (hcreated : t.registry.created = s.registry.created ∨
      t.registry.created = s.registry.created ++ [key])
    (ht : ∀ i, (t.threads i).scheduled = (s.threads i).scheduled) (task : Task) :
    ∃ as q, (PostOffice.machine ExternalId Task).run p as = some q ∧ Files t q ∧
      q.log = p.log ++ [.letter key task none] := by
  have hmail : ∀ i, otherTasks (t.threads i).scheduled =
      contents (p.log ++ [.letter key task none]) i := by
    intro i
    rw [ht, contents_snoc, hf.mail i]
    simp [Entry.mailIn]
  have hbox : p.box key = none := (hf.box hi key).trans hnone
  obtain hcreated | hcreated := hcreated
  · refine ⟨[.post key task], { p with log := p.log ++ [.letter key task none] }, ?_, ⟨?_, ?_, hmail, ?_⟩,
      rfl⟩
    · rw [← hbox]
      rfl
    · exact hf.owners.trans hcreated.symm
    · exact hf.current.trans hboxes.symm
    · rw [← hbox]
      exact hf.sorted.step (a := .post key task) rfl
  · refine ⟨[.discard key, .post key task],
      { p with owners := p.owners ++ [key], log := p.log ++ [.letter key task none] }, ?_,
      ⟨?_, ?_, hmail, ?_⟩, rfl⟩
    · rw [← hbox]
      rfl
    · rw [hcreated, ← hf.owners]
    · exact hf.current.trans hboxes.symm
    · rw [← hbox]
      exact (hf.sorted.setUp key).step (a := .post key task) rfl

/-- What a failed creation leaves of the boxes. -/
theorem Configured.fail {log : List (Entry ExternalId Task)} (hc : Configured s log)
    (hboxes : t.registry.boxes = s.registry.boxes)
    (hcreated : t.registry.created = s.registry.created ∨
      t.registry.created = s.registry.created ++ [key]) (task : Task) :
    Configured t (log ++ [.letter key task none]) := by
  have hhosted : t.registry.hosted = s.registry.hosted := by
    rw [← Registry.boxes_snd, hboxes, Registry.boxes_snd]
  refine (hc.mono ?_ fun i hi => hhosted ▸ hi).enter fun i h => by cases h
  obtain h | h := hcreated
  · exact h ▸ List.prefix_refl _
  · exact h ▸ List.prefix_append _ _

/-- The instance of a `config.changed` is in the registry, and gets it. -/
theorem Files.register (hf : Files s p) (hi : s.Inv) (hc : Configured s p.log)
    {request : ConfigChangedRequest} {a : CreateAnswers} (hw : s.wait = .starting request a)
    (hd : (s.threads s.registry.created.length).startDone = some true) :
    let key := request.adapter.externalId
    let r := s.registry.ensureInstance request { a with started := some true }
    ∃ as q, (PostOffice.machine ExternalId Task).run p as = some q ∧
      Files ({ s with wait := .idle, registry := r }
        |>.executeOnRuntime key (.hook (.onConfigChanged request))) q ∧
      Configured ({ s with wait := .idle, registry := r }
        |>.executeOnRuntime key (.hook (.onConfigChanged request))) q.log ∧
      ∃ i, q.log = p.log ++ [.letter key (.hook (.onConfigChanged request)) (some i)] ∧
        ({ s with wait := .idle, registry := r } : TimedHost).findInstance key = some i := by
  intro key r
  obtain ⟨h1, h2, -⟩ := hi.at_wait hw
  have hopens : r.boxes = s.registry.boxes ++ [(key, s.registry.created.length)] :=
    ensureInstance_opens (a := { a with started := some true }) hi.valid h1 h2 rfl
  obtain ⟨hhosted, hcreated, -⟩ :=
    ensureInstance_started (a := { a with started := some true }) hi.valid h1 h2 rfl
  have hinv := hi.registered hw hd
  have hnone : p.box key = none := by
    rw [hf.box hi, TimedHost.findInstance, (startsBackend_iff.1 h1).2.1]
    rfl
  -- the box is opened
  obtain ⟨p', hp'⟩ : ∃ p' : PostOffice ExternalId Task, p' =
      { p with owners := p.owners ++ [key], current := p.current ++ [(key, p.owners.length)] } := ⟨_, rfl⟩
  have hopen : p.step (.openBox key) = some p' := by
    rw [PostOffice.step, hnone, hp']
    rfl
  have hf' : Files { s with wait := .idle, registry := r } p' := by
    refine ⟨?_, ?_, fun i => ?_, hf.sorted.step hopen⟩
    · rw [hp', hf.owners]
      exact hcreated.symm
    · rw [hp', hf.owners, hf.current]
      exact hopens.symm
    · rw [hp']
      exact hf.mail i
  obtain ⟨q, hq, hfiles, hlog⟩ := hf'.dispatch hinv rfl key (isOther_hook (.onConfigChanged request))
  have hfound : ({ s with wait := .idle, registry := r } : TimedHost).findInstance key =
      some s.registry.created.length := by
    rw [← hf'.box hinv key, hp', ← hf.owners]
    show List.lookup key (p.current ++ _) = _
    rw [List.lookup_append, show p.current.lookup key = none from hnone]
    simp
  have hcontents : ∀ i, contents q.log i = contents p.log i ++
      if i = s.registry.created.length then [.hook (.onConfigChanged request)] else [] := by
    intro i
    rw [hlog, contents_snoc, hfound, hp']
    by_cases hin : i = s.registry.created.length
    · subst hin
      simp [Entry.mailIn]
    · simp [Entry.mailIn, hin, Ne.symm hin]
  have hempty : contents p.log s.registry.created.length = [] := by
    rw [← hf.owners]
    exact contents_fresh hf.sorted.fresh
  refine ⟨[.openBox key, .post key (.hook (.onConfigChanged request))], q, ?_, hfiles,
    Configured.same (s := { s with wait := .idle, registry := r }) ⟨fun i => ?_, fun i hi => ?_⟩ ?_,
    s.registry.created.length, ?_, hfound⟩
  · rw [Lts.Machine.run_cons,
      show (PostOffice.machine ExternalId Task).step p (.openBox key) = some p' from hopen]
    exact run_one hq
  · rw [hcontents]
    by_cases hin : i = s.registry.created.length
    · subst hin
      refine .inr ⟨request, [], by simp [hempty], ?_⟩
      show r.created[_]? = _
      rw [show r.created = _ from hcreated]
      simp
    · obtain hnil | ⟨request', rest, hfirst, howner⟩ := hc.first i
      · exact .inl (by simp [hnil, hin])
      · refine .inr ⟨request', rest, by simp [hfirst, hin], Registry.get_prefix ?_ howner⟩
        rw [show r.created = _ from hcreated]
        exact List.prefix_append _ _
  · rw [hcontents]
    by_cases hin : i = s.registry.created.length
    · simp [hin]
    · have hmem : i ∈ r.hosted := hi
      rw [show r.hosted = _ from hhosted] at hmem
      have hold := hc.begun i (by simpa [hin] using hmem)
      simp [hold]
  · exact executeOnRuntime_registry _ _ _
  · rw [hlog, hp', hfound]

/-- Why a letter goes to no instance. -/
inductive Unserved (s : TimedHost) : HookAct → ExternalId → Task → Prop
  /-- Nothing is hosted under the external id. -/
  | unknown {key : ExternalId} {task : Task} (h : s.findInstance key = none) :
    Unserved s (.dispatch key task) key task
  /-- The instance that the `config.changed` asks for is not made, or its backend does not start. -/
  | refused {request : ConfigChangedRequest} {a : CreateAnswers}
      (hnone : s.findInstance request.adapter.externalId = none)
      (h : startsBackend s.registry request a = false) :
    Unserved s (.configChanged request a) request.adapter.externalId (.hook (.onConfigChanged request))
  /-- Its `start()` has not returned true in time. -/
  | rolledBack {request : ConfigChangedRequest} {a : CreateAnswers} {act : HookAct}
      (hwait : s.wait = .rollback request a) :
    Unserved s act request.adapter.externalId (.hook (.onConfigChanged request))

/-- An entry is what the step has done: a letter goes to the instance that has its external id then, and to
nobody when there is none. -/
def Posted (s : TimedHost) (act : HookAct) (t : TimedHost) : Entry ExternalId Task → Prop
  | .letter key task box => box = t.findInstance key ∧ (box = none → Unserved s act key task)
  | .circular task boxes => act = .dispatchAll task ∧ boxes = t.registry.hosted

/-- Some actions of the post office lead to what the host is in now, with `new` posted in order. -/
def Posts (s t : TimedHost) (p : PostOffice ExternalId Task) (act : HookAct)
    (new : List (ExternalId × Task)) : Prop :=
  ∃ as q, (PostOffice.machine ExternalId Task).run p as = some q ∧ Files t q ∧ Configured t q.log ∧
    letters q.log ++ t.wait.mail = letters p.log ++ (s.wait.mail ++ new) ∧
    (q.log = p.log ∨ ∃ e, q.log = p.log ++ [e] ∧ Posted s act t e)

variable {act : HookAct}

theorem Files.unchanged (hf : Files s p) (hc : Configured s p.log) (hr : t.registry = s.registry)
    (hs : ∀ i, otherTasks (t.threads i).scheduled = otherTasks (s.threads i).scheduled)
    {new : List (ExternalId × Task)} (hw : t.wait.mail = s.wait.mail ++ new) : Posts s t p act new :=
  ⟨[], p, rfl, hf.same hr hs, hc.same hr, by rw [hw], .inl rfl⟩

theorem findInstance_executeOnRuntime (s : TimedHost) (key : ExternalId) (task : Task) :
    (s.executeOnRuntime key task).findInstance = s.findInstance := by
  funext key'
  rw [TimedHost.findInstance, executeOnRuntime_registry]
  rfl

theorem Files.posted (hf : Files s p) (hi : s.Inv) (hc : Configured s p.log) (hidle : s.wait = .idle)
    (key : ExternalId) (ht : task.IsOther)
    (hwhy : s.findInstance key = none → Unserved s act key task) :
    Posts s (s.executeOnRuntime key task) p act [(key, task)] := by
  obtain ⟨q, hq, hfiles, hlog⟩ := hf.dispatch hi hidle key ht
  refine ⟨_, q, run_one hq, hfiles, ?_, ?_, .inr ⟨_, hlog, ?_, hwhy⟩⟩
  · rw [hlog]
    refine (hc.same (executeOnRuntime_registry _ _ _)).enter fun i hreach => ?_
    rw [executeOnRuntime_registry]
    exact findInstance_hosted hi hreach
  · rw [hlog, letters_snoc, executeOnRuntime_wait, hidle]
    exact List.append_nil _
  · rw [findInstance_executeOnRuntime]

/-- A creation that fails. -/
theorem Files.returned (hf : Files s p) (hi : s.Inv) (hit : t.Inv) (hc : Configured s p.log)
    (key : ExternalId) (task : Task) (hnone : s.findInstance key = none)
    (hwhy : Unserved s act key task) (hboxes : t.registry.boxes = s.registry.boxes)
    (hcreated : t.registry.created = s.registry.created ∨
      t.registry.created = s.registry.created ++ [key])
    (ht : ∀ i, (t.threads i).scheduled = (s.threads i).scheduled) {new : List (ExternalId × Task)}
    (hnew : (key, task) :: t.wait.mail = s.wait.mail ++ new) : Posts s t p act new := by
  obtain ⟨as, q, hq, hfiles, hlog⟩ := hf.fail hi hnone hboxes hcreated ht task
  refine ⟨as, q, hq, hfiles, ?_, ?_, .inr ⟨_, hlog, ?_, fun _ => hwhy⟩⟩
  · rw [hlog]
    exact hc.fail hboxes hcreated _
  · rw [hlog, letters_snoc, List.append_assoc, ← hnew]
    rfl
  · rw [← hfiles.box hit, PostOffice.box, hfiles.current, hboxes, ← hf.current]
    exact ((hf.box hi key).trans hnone).symm

theorem Files.rolledBack (hf : Files s p) (hi : s.Inv) (hit : t.Inv) (hc : Configured s p.log)
    (hw : s.wait = .rollback request a) {answer : Except Utf8String Unit}
    (hr : t.registry = s.registry.ensureInstance request { a with stop := answer })
    (ht : ∀ i, (t.threads i).scheduled = (s.threads i).scheduled) (hidle : t.wait = .idle) :
    Posts s t p act [] := by
  obtain ⟨h1, h2, h3⟩ := hi.at_wait hw
  refine hf.returned hi hit hc request.adapter.externalId (.hook (.onConfigChanged request)) ?_
    (.rolledBack hw) ?_ (.inr ?_) ht ?_
  · rw [TimedHost.findInstance, (startsBackend_iff.1 h1).2.1]
    rfl
  · rw [hr]
    exact ensureInstance_keeps_rollback (a := { a with stop := answer }) h1 h2 h3
  · rw [hr]
    exact (ensureInstance_rollback (a := { a with stop := answer }) h1 h2 h3).2.1
  · rw [hidle, hw]
    rfl

theorem Files.removed (hf : Files s p) (hi : s.Inv) (hc : Configured s p.log) {i : Nat}
    (hw : s.wait = .joining key i) {answer : Except Utf8String Unit}
    (hr : t.registry = s.registry.stopAndDestroyInstance key { stop := answer })
    (ht : ∀ i, (t.threads i).scheduled = (s.threads i).scheduled) (hidle : t.wait = .idle) :
    Posts s t p act [] := by
  obtain ⟨hfind, -⟩ := hi.at_wait hw
  obtain ⟨-, hhosted, hcreated, -⟩ := stopAndDestroyInstance_hosted hi.valid hfind answer
  rw [← hr] at hhosted hcreated
  refine ⟨[.closeBox key], _, run_one rfl, ⟨?_, ?_, fun j => ?_, hf.sorted.step (a := .closeBox key) rfl⟩,
    hc.mono (hcreated ▸ List.prefix_refl _) fun j hj => ((hhosted j).1 hj).1, ?_, .inl rfl⟩
  · exact hf.owners.trans hcreated.symm
  · rw [hf.current, hr]
    exact (stopAndDestroyInstance_closes hi.valid hfind answer).symm
  · rw [ht]
    exact hf.mail j
  · rw [hw, hidle]
    rfl

/-- The end of a wait. -/
theorem Files.waitStep (hf : Files s p) (hi : s.Inv) (hit : t.Inv) (hc : Configured s p.log)
    (ht : WaitStep s t) : Posts s t p act [] := by
  cases ht with
  | @registered request a hw hd =>
    obtain ⟨as, q, hq, hfiles, hconf, i, hlog, hbox⟩ := hf.register hi hc hw hd
    refine ⟨as, q, hq, hfiles, hconf, ?_, .inr ⟨_, hlog, ?_, nofun⟩⟩
    · rw [hlog, letters_snoc, executeOnRuntime_wait, hw]
      exact List.append_assoc _ _ _
    · rw [findInstance_executeOnRuntime]
      exact hbox.symm
  | rollback started hw hs hne =>
    apply hf.unchanged hc
    · rfl
    · exact fun i => congrArg otherTasks (requestStop_scheduled s _ i)
    · rw [hw]
      rfl
  | rolledBack hw hx => exact hf.rolledBack hi hit hc hw rfl (setThread_scheduled rfl) rfl
  | notRolledBack hw => exact hf.rolledBack hi hit hc hw rfl (fun _ => rfl) rfl
  | join hw =>
    apply hf.unchanged hc
    · rfl
    · exact fun i => congrArg otherTasks (requestStop_scheduled s _ i)
    · rw [hw]
      rfl
  | removed hw hx => exact hf.removed hi hc hw rfl (setThread_scheduled rfl) rfl
  | leaked hw => exact hf.removed hi hc hw rfl (fun _ => rfl) rfl

theorem Files.configChanged (hf : Files s p) (hi : s.Inv) (hc : Configured s p.log)
    (hidle : s.wait = .idle) (request : ConfigChangedRequest) (a : CreateAnswers)
    (hit : (s.configChanged request a).Inv) :
    Posts s (s.configChanged request a) p (.configChanged request a)
      [(request.adapter.externalId, .hook (.onConfigChanged request))] := by
  unfold TimedHost.configChanged at hit ⊢
  split_ifs at hit ⊢ with hfound hstarts
  · refine hf.posted hi hc hidle _ (isOther_hook _) fun hnone => ?_
    obtain ⟨i, hi⟩ := findInstance_of_findRuntime hi hfound
    cases hnone.symm.trans hi
  · -- the start task is all that a new instance has got
    have hempty : s.threads s.registry.created.length = {} :=
      hi.fresh _ (Nat.le_refl _) fun hnew => by rw [hidle] at hnew; cases hnew
    apply hf.unchanged hc
    · rfl
    · exact otherTasks_setThread (by rw [hempty]; rfl)
    · rw [hidle]
      rfl
  · have hnone : s.registry.findRuntime request.adapter.externalId = none := by simpa using hfound
    have hstarts : startsBackend s.registry request a = false := by simpa using hstarts
    have hnobody : s.findInstance request.adapter.externalId = none := by
      rw [TimedHost.findInstance, hnone]
      rfl
    obtain ⟨-, hcreated⟩ := ensureInstance_failed hnone hstarts
    apply hf.returned hi hit hc request.adapter.externalId (.hook (.onConfigChanged request)) hnobody
    · exact .refused hnobody hstarts
    · exact ensureInstance_keeps_failed hnone hstarts
    · exact hcreated.imp (·.1) (·.1)
    · exact fun _ => rfl
    · rw [hidle]
      rfl

theorem Files.removeInstance (hf : Files s p) (hi : s.Inv) (hc : Configured s p.log)
    (hidle : s.wait = .idle) (rest : List ExternalId) (key : ExternalId) :
    Posts s (removeInstance { s with teardown := rest } key) p act [] := by
  unfold TimedHost.removeInstance
  cases hk : ({ s with teardown := rest } : TimedHost).findInstance key with
  | none =>
    exact hf.unchanged (t := { s with teardown := rest }) hc rfl (fun _ => rfl) (List.append_nil _).symm
  | some i =>
    have hserving := serving_of_idle hi hidle (findInstance_hosted hi hk)
    dsimp only
    rw [hserving.execute_eq]
    apply hf.unchanged hc
    · rfl
    · exact otherTasks_setThread (otherTasks_stop _)
    · rw [hidle]
      rfl

/-- **What the host thread does with a message is what the post office does with a letter**; nothing
else posts one. -/
theorem files_step (hf : Files s p) (hi : s.Inv) (hc : Configured s p.log)
    (h : s.step act = some t) : Posts s t p act act.mail := by
  have hit := step_inv hi h
  cases act with
  | configChanged request a =>
    obtain ⟨hg, ht⟩ := Option.ite_none_right_eq_some.1 h
    cases ht
    exact hf.configChanged hi hc (isIdle_iff.1 (Bool.and_eq_true_iff.1 hg).1).1 request a hit
  | instanceRemoved key =>
    obtain ⟨hg, ht⟩ := Option.ite_none_right_eq_some.1 h
    cases ht
    exact hf.removeInstance hi hc (isIdle_iff.1 (Bool.and_eq_true_iff.1 hg).1).1 s.teardown key
  | stop keys =>
    obtain ⟨-, ht⟩ := Option.ite_none_right_eq_some.1 h
    cases ht
    apply hf.unchanged hc
    · rfl
    · exact fun _ => rfl
    · exact (List.append_nil _).symm
  | next =>
    simp only [step] at h
    split at h
    · next key rest hw _ =>
      cases h
      exact hf.removeInstance hi hc hw rest key
    · cases h
  | dispatch key task =>
    obtain ⟨hg, ht⟩ := Option.ite_none_right_eq_some.1 h
    cases ht
    simp only [Bool.and_eq_true, decide_eq_true_eq] at hg
    exact hf.posted hi hc (isIdle_iff.1 hg.1.1).1 key ⟨hg.1.2, hg.2⟩ .unknown
  | dispatchAll task =>
    obtain ⟨hg, ht⟩ := Option.ite_none_right_eq_some.1 h
    cases ht
    simp only [Bool.and_eq_true, decide_eq_true_eq] at hg
    have hidle := (isIdle_iff.1 hg.1.1).1
    obtain ⟨q, hq, hfiles, hlog⟩ := hf.dispatchAll hi hidle ⟨hg.1.2, hg.2⟩
    have hsame : (s.executeOnAllRuntimes task).wait = s.wait ∧
        (s.executeOnAllRuntimes task).registry = s.registry :=
      executeOnAllRuntimes_induct (P := fun u => u.wait = s.wait ∧ u.registry = s.registry)
        ⟨rfl, rfl⟩ fun u i hu _ _ => hu
    refine ⟨_, q, run_one hq, hfiles, ?_, ?_, .inr ⟨_, hlog, rfl, by rw [hsame.2]⟩⟩
    · rw [hlog]
      refine (hc.same hsame.2).enter fun i hreach => ?_
      rw [hsame.2]
      exact hreach
    · rw [hlog, letters, List.filterMap_append, hsame.1]
      simp [letters, Entry.letter?, HookAct.mail]
  | waited => exact hf.waitStep hi hit hc (waited_cases h)
  | timeout => exact hf.waitStep hi hit hc (timeout_cases h)
  | work i a =>
    obtain ⟨-, h⟩ := Option.ite_none_left_eq_some.1 h
    obtain ⟨w, hw, rfl⟩ := Option.map_eq_some_iff.1 h
    have hkept := (InstanceThread.work_step hw).kept (hi.ok i)
    apply hf.unchanged hc
    · rfl
    · exact fun j => congrArg otherTasks (setThread_scheduled hkept.scheduled j)
    · exact (List.append_nil _).symm

end TimedHost

end Phi.Host
