import PhiSidecar.Host.WorkerEnds

/-!
# Every thread is joined once, after its end

`Inv` ties the ledger of the threads to the handles that the backends, their stops and the registry hold.

* `step_inv`: every step keeps it.
* `run_threads`: **no handle is lost, none is joined twice or too early**.
-/

set_option autoImplicit false

namespace Phi.Host

universe u

namespace Process

open AbandonedThreadRegistry DefaultInstanceExecutionBackend Ledger

variable {α : Type u} {p q : Process α} {b : Nat} {slot slot' : Slot α} {e : Entry} {a : Process.Act α}

/-! ## Inversion -/

theorem isIdle_iff {c : Caller} : c.isIdle = true ↔ c = .idle := by
  cases c <;> simp [Caller.isIdle]

inductive Step (p : Process α) : Process.Act α → Process α → Prop
  | new : p.main.hosting = true → Step p .new { p with backends := p.backends ++ [{}] }
  | call {b : Nat} {slot : Slot α} {a : DefaultInstanceExecutionBackend.Act α}
      {t : DefaultInstanceExecutionBackend α} : p.backends[b]? = some slot → permits p.main slot a = true →
      slot.backend.step a = some t → Step p (.call b a) (p.call b slot a t)
  | adopt {b k i : Nat} {slot : Slot α} : p.backends[b]? = some slot →
      slot.backend.caller = .stopReplace k i → slot.adopted = false → p.reaping = none →
      Step p (.adopt b)
        { p.setSlot b { slot with adopted := true } with entries := p.entries ++ [⟨b, i, k⟩] }
  | destroy {b : Nat} {slot : Slot α} : p.backends[b]? = some slot → p.main.hosting = true → slot.life = .alive →
      slot.backend.caller = .idle →
      Step p (.destroy b) (p.setSlot b { slot with backend := slot.backend.stop, life := .ending })
  | destroyed {b : Nat} {slot : Slot α} : p.backends[b]? = some slot → slot.life = .ending →
      slot.backend.caller = .idle →
      Step p (.destroyed b) { p.setSlot b { slot with life := .ended } with
        terminated := p.terminated || slot.backend.thread.isSome }
  | reap {main : Bool} : p.reaping = none → (main = true → ∃ left, p.main = .grace left ∧ left ≠ some 0) →
      Step p (.reap main) { p with reaping := some { main } }
  | joins {r : Reaping} {e : Entry} : p.reaping = some r → p.entries[r.it]? = some e → p.hasExited e = true →
      p.returned (e.backend, e.thread) = true →
      Step p .next { p with
        entries := p.entries.eraseIdx r.it
        threads := p.threads ++ [.release (some (e.backend, e.thread))] }
  | passes {r : Reaping} {e : Entry} : p.reaping = some r → p.entries[r.it]? = some e →
      p.hasExited e = false → Step p .next { p with reaping := some { r with it := r.it + 1 } }
  | reaped {r : Reaping} : p.reaping = some r → p.entries.length ≤ r.it → Step p .reaped (p.reaped r)
  | hostStarted : p.main = .starting → Step p (.hostStarted true) { p with main := .loop }
  | hostFailed : p.main = .starting → (∀ slot ∈ p.backends, slot.atRest = true) →
      Step p (.hostStarted false) { p with main := .failed }
  | hostStopped : p.main = .loop → (∀ slot ∈ p.backends, slot.atRest = true) →
      Step p .hostStopped { p with main := .grace none }
  | returns {deadline : Bool} : p.main = .grace (some 0) → p.reaping.any (·.main) = false →
      Step p (.leave deadline) { p with main := .returned }
  | exits {n : Nat} : p.main = .grace (some (n + 1)) → p.reaping.any (·.main) = false →
      Step p (.leave true) { p with main := .exited }

theorem step_cases (h : p.step a = some q) : Step p a q := by
  cases a with
  | new =>
    obtain ⟨hm, h⟩ := Option.ite_none_right_eq_some.1 h
    cases h
    exact .new hm
  | call b a =>
    obtain ⟨slot, hb, h⟩ := Option.bind_eq_some_iff.1 h
    split at h
    · next hp =>
      obtain ⟨t, ht, rfl⟩ := Option.map_eq_some_iff.1 h
      exact .call hb hp ht
    · cases h
  | adopt b =>
    obtain ⟨slot, hb, h⟩ := Option.bind_eq_some_iff.1 h
    unfold Process.adopt at h
    split at h
    · next hc ha hr => cases h; exact .adopt hb hc ha hr
    · cases h
  | destroy b =>
    obtain ⟨slot, hb, h⟩ := Option.bind_eq_some_iff.1 h
    unfold Process.destroy at h
    split at h
    · next hg =>
      cases h
      simp only [Bool.and_eq_true, beq_iff_eq, isIdle_iff] at hg
      exact .destroy hb hg.1.1 hg.1.2 hg.2
    · cases h
  | destroyed b =>
    obtain ⟨slot, hb, h⟩ := Option.bind_eq_some_iff.1 h
    unfold Process.destroyed at h
    split at h
    · next hg =>
      cases h
      simp only [Bool.and_eq_true, beq_iff_eq, isIdle_iff] at hg
      exact .destroyed hb hg.1 hg.2
    · cases h
  | reap main =>
    simp only [step] at h
    split at h
    · next hr => cases h; exact .reap hr nofun
    · next hr hm => cases h; exact .reap hr fun _ => ⟨_, hm, by simp⟩
    · next hr hm => cases h; exact .reap hr fun _ => ⟨_, hm, by simp⟩
    · cases h
  | next =>
    obtain ⟨r, hr, h⟩ := Option.bind_eq_some_iff.1 h
    obtain ⟨e, he, h⟩ := Option.bind_eq_some_iff.1 h
    unfold Process.next at h
    split at h
    · next hx =>
      split at h
      · next hret => cases h; exact .joins hr he hx hret
      · cases h
    · next hx => cases h; exact .passes hr he (by simpa using hx)
  | reaped =>
    obtain ⟨r, hr, h⟩ := Option.bind_eq_some_iff.1 h
    split at h
    · next he => cases h; exact .reaped hr (List.getElem?_eq_none_iff.1 he)
    · cases h
  | hostStarted ok =>
    simp only [step, Process.hostStarted] at h
    split at h
    · next hm => cases h; exact .hostStarted hm
    · next hm =>
      obtain ⟨hall, h⟩ := Option.ite_none_right_eq_some.1 h
      cases h
      exact .hostFailed hm (List.all_eq_true.1 hall)
    · cases h
  | hostStopped =>
    simp only [step, Process.hostStopped] at h
    split at h
    · next hm =>
      obtain ⟨hall, h⟩ := Option.ite_none_right_eq_some.1 h
      cases h
      exact .hostStopped hm (List.all_eq_true.1 hall)
    all_goals cases h
  | leave deadline =>
    simp only [step] at h
    split at h
    · next hm hr => cases h; exact .returns hm hr
    · next n hm hr =>
      split at h
      · next hd => cases h; cases hd; exact .exits hm hr
      · cases h
    · cases h

/-! ## One backend of the process -/

structure Slot.Ok (slot : Slot α) : Prop where
  inv : slot.backend.Inv
  marked : slot.backend.Marked
  adopted : slot.adopted = true → ∃ k i, slot.backend.caller = .stopReplace k i
  ending : slot.life ≠ .alive → slot.backend.Halting

theorem Slot.Ok.new : ({} : Slot α).Ok := ⟨.new, .new, nofun, fun h => absurd rfl h⟩

/-- What is still true of the workers of a backend. -/
structure Slot.Evolves (slot slot' : Slot α) : Prop where
  worker : ∀ (i : Nat) w, slot.backend.workers[i]? = some w →
    ∃ w', slot'.backend.workers[i]? = some w' ∧ (w.pc = .exited → w'.pc = .exited)
  abandoned : ∀ k i, slot.backend.Abandoned k i → slot'.backend.Abandoned k i

theorem Slot.Evolves.of_eq (h : slot'.backend = slot.backend) : slot.Evolves slot' :=
  ⟨fun _ w hi => ⟨w, h ▸ hi, id⟩, fun _ _ ha => h ▸ ha⟩

section
variable {act : DefaultInstanceExecutionBackend.Act α} {t : DefaultInstanceExecutionBackend α}

@[simp] theorem Slot.after_backend : (slot.after act t).backend = t := by
  unfold Slot.after
  split <;> rfl

theorem Slot.after_of_ne (h : act ≠ .replace) : slot.after act t = { slot with backend := t } := by
  unfold Slot.after
  split
  · exact absurd rfl h
  · rfl

theorem Slot.Evolves.of_step (h : slot.backend.Inv) (ht : slot.backend.step act = some t)
    (hback : slot'.backend = t) : slot.Evolves slot' := by
  refine ⟨fun i w hi => ?_, fun k i ha => ?_⟩
  · obtain ⟨w', hw', -, he⟩ := step_worker h ht hi
    exact ⟨w', hback ▸ hw', he⟩
  · rw [hback]
    exact ha.step h ht

/-- What a step does with the handles that are not in the registry. -/
inductive Slot.HandleStep (slot : Slot α) (act : DefaultInstanceExecutionBackend.Act α) (slot' : Slot α) : Prop
  | keeps : slot.backend.threadOps act = [] →
      slot'.backend.workers.length = slot.backend.workers.length → slot'.handles = slot.handles →
      Slot.HandleStep slot act slot'
  | creates : slot.backend.threadOps act = [.acquire slot.backend.workers.length] →
      slot'.backend.workers.length = slot.backend.workers.length + 1 → slot.handles = [] →
      slot'.handles = [slot.backend.workers.length] → Slot.HandleStep slot act slot'
  | joins (i : Nat) : slot.backend.threadOps act = [.release (some i)] →
      slot'.backend.workers.length = slot.backend.workers.length → slot.handles = [i] → slot'.handles = [] →
      (∃ w, slot.backend.workers[i]? = some w ∧ w.pc = .exited) → Slot.HandleStep slot act slot'

theorem Slot.handles_eq (h : slot.adopted = false) : slot.handles = slot.backend.handles := by
  rw [Slot.handles, h]
  rfl

theorem Slot.Ok.step (h : slot.Ok) {main : MainAt} (hp : permits main slot act = true)
    (ht : slot.backend.step act = some t) :
    (slot.after act t).Ok ∧ slot.HandleStep act (slot.after act t) := by
  have hinv := step_inv h.inv ht
  have hmarked := step_marked h.marked h.inv ht
  by_cases hact : act = .replace
  · -- what the registry has is forgotten
    subst hact
    have hadopted : slot.adopted = true := hp
    refine ⟨⟨hinv, hmarked, nofun, fun hl => step_halting (h.ending hl) h.inv (fun hn => by cases hn) ht⟩, ?_⟩
    cases step_handles h.inv ht with
    | forgets _ hops hlen hthread hhandles =>
      refine .keeps hops hlen ?_
      rw [Slot.handles_eq rfl, Slot.handles, hadopted, hthread]
      exact hhandles
    | keeps hne => exact absurd rfl hne
    | creates hops => cases hops
    | joins i hops => cases hops
  · rw [Slot.after_of_ne hact]
    have hadopted : slot.adopted = true → t.thread = slot.backend.thread ∧ t.caller = slot.backend.caller ∧
        slot.backend.threadOps act = [] ∧ t.workers.length = slot.backend.workers.length := by
      intro ha
      obtain ⟨k, i, hc⟩ := h.adopted ha
      cases step_handles h.inv ht with
      | keeps _ hops hlen _ hsame => exact ⟨(hsame k i hc).1, (hsame k i hc).2, hops, hlen⟩
      | creates _ _ hc' => cases hc.symm.trans hc'
      | joins _ _ _ hc' =>
        obtain ⟨k', hc'⟩ := hc'
        cases hc.symm.trans hc'
      | forgets hr => exact absurd hr hact
    refine ⟨⟨hinv, hmarked, fun ha => ?_, fun hl => step_halting (h.ending hl) h.inv ?_ ht⟩, ?_⟩
    · obtain ⟨k, i, hc⟩ := h.adopted ha
      exact ⟨k, i, (hadopted ha).2.1.trans hc⟩
    · rintro rfl
      simp only [permits, Bool.and_eq_true, beq_iff_eq] at hp
      exact hl hp.2
    · by_cases ha : slot.adopted = true
      · obtain ⟨hthread, hcaller, hops, hlen⟩ := hadopted ha
        refine .keeps hops hlen ?_
        show t.thread.toList ++ (if slot.adopted then [] else t.caller.thread.toList) = slot.handles
        rw [Slot.handles, hthread, hcaller]
      · have ha : slot.adopted = false := by simpa using ha
        have hslot := slot.handles_eq ha
        have hslot' : ({ slot with backend := t } : Slot α).handles = t.handles := Slot.handles_eq ha
        cases step_handles h.inv ht with
        | keeps _ hops hlen hhandles => exact .keeps hops hlen (by rw [hslot, hslot', hhandles])
        | creates hops hlen _ hnone hone => exact .creates hops hlen (hslot.trans hnone) (hslot'.trans hone)
        | joins i hops hlen _ hone hnone he =>
          exact .joins i hops hlen (hslot.trans hone) (hslot'.trans hnone) he
        | forgets hr => exact absurd hr hact

end

/-! ## The invariant -/

theorem get_snoc {β : Type*} {l : List β} {x y : β} {c : Nat} (h : (l ++ [y])[c]? = some x) :
    l[c]? = some x ∨ x = y := by
  obtain hlt | hle := Nat.lt_or_ge c l.length
  · exact .inl (by rwa [List.getElem?_append_left hlt] at h)
  · rw [List.getElem?_append_right hle] at h
    exact .inr (List.mem_singleton.1 (List.mem_of_getElem? h))

/-- The backends evolve one by one. -/
def Evolves (l l' : List (Slot α)) : Prop :=
  ∀ (b : Nat) slot, l[b]? = some slot → ∃ slot', l'[b]? = some slot' ∧ slot.Evolves slot'

theorem Evolves.refl (l : List (Slot α)) : Evolves l l := fun _ slot hb => ⟨slot, hb, .of_eq rfl⟩

theorem Evolves.set {l : List (Slot α)} (hb : l[b]? = some slot) (h : slot.Evolves slot') :
    Evolves l (l.set b slot') := by
  intro c x hc
  by_cases hbc : b = c
  · subst hbc
    obtain rfl : slot = x := Option.some.inj (hb.symm.trans hc)
    exact ⟨slot', List.getElem?_set_self (List.getElem?_eq_some_iff.1 hb).1, h⟩
  · exact ⟨x, (List.getElem?_set_ne hbc).trans hc, .of_eq rfl⟩

/-- The thread has come to its end. -/
def AtEnd (p : Process α) (x : Nat × Nat) : Prop :=
  ∃ slot w, p.backends[x.1]? = some slot ∧ slot.backend.workers[x.2]? = some w ∧ w.pc = .exited

theorem AtEnd.evolves {x : Nat × Nat} (h : p.AtEnd x) (hev : Evolves p.backends q.backends) : q.AtEnd x := by
  obtain ⟨slot, w, hb, hi, he⟩ := h
  obtain ⟨slot', hb', hslot⟩ := hev _ _ hb
  obtain ⟨w', hi', he'⟩ := hslot.worker _ _ hi
  exact ⟨slot', w', hb', hi', he' he⟩

theorem returned_iff {x : Nat × Nat} : p.returned x = true ↔ p.AtEnd x := by
  unfold Process.returned AtEnd
  rw [beq_iff_eq, Option.map_eq_some_iff]
  simp only [Option.bind_eq_some_iff, Worker.returned_iff]
  constructor
  · rintro ⟨w, ⟨slot, hb, hi⟩, he⟩
    exact ⟨slot, w, hb, hi, he⟩
  · rintro ⟨slot, w, hb, hi, he⟩
    exact ⟨w, ⟨slot, hb, hi⟩, he⟩

/-- An entry of the registry is a thread whose `stop` has timed out. -/
def Known (p : Process α) (e : Entry) : Prop :=
  ∃ slot, p.backends[e.backend]? = some slot ∧ slot.backend.Abandoned e.state e.thread

theorem Known.evolves (h : p.Known e) (hev : Evolves p.backends q.backends) : q.Known e := by
  obtain ⟨slot, hb, he⟩ := h
  obtain ⟨slot', hb', hslot⟩ := hev _ _ hb
  exact ⟨slot', hb', hslot.abandoned _ _ he⟩

/-- How many workers a backend has had. -/
def workerCount (p : Process α) (b : Nat) : Nat :=
  (p.backends[b]?.map (·.backend.workers.length)).getD 0

structure Inv (p : Process α) : Prop where
  slots : ∀ (b : Nat) slot, p.backends[b]? = some slot → slot.Ok
  entries : ∀ e ∈ p.entries, p.Known e
  fresh : Throughout Fresh p.threads
  keeps : Ledger.Keeps [] [] p.handles p.threads
  made : ∀ b i, p.threads.count (.acquire (b, i)) = if i < p.workerCount b then 1 else 0
  joined : ∀ x, .release (some x) ∈ p.threads → p.AtEnd x
  terminated : p.terminated = false

theorem Inv.new : ({} : Process α).Inv where
  slots b slot h := by simp at h
  entries e he := nomatch he
  fresh := Throughout.nil
  keeps := Ledger.Keeps.nil
  made b i := by simp [workerCount]
  joined x hx := nomatch hx
  terminated := rfl

/-! ## The handles of the process -/

theorem exists_flatMap_set {β γ : Type*} {l : List β} {x : β} (hb : l[b]? = some x) (f : β × Nat → List γ) :
    ∃ front back, ∀ y, (l.set b y).zipIdx.flatMap f = front ++ f (y, b) ++ back := by
  have hlt := (List.getElem?_eq_some_iff.1 hb).1
  refine ⟨(l.take b).zipIdx.flatMap f, ((l.drop (b + 1)).zipIdx (b + 1)).flatMap f, fun y => ?_⟩
  have hlen : (l.take b).length = b := by simp; omega
  rw [List.set_eq_take_append_cons_drop, if_pos hlt, List.zipIdx_append, List.flatMap_append, hlen,
    List.zipIdx_cons, List.flatMap_cons]
  simp

theorem handles_setSlot (hb : p.backends[b]? = some slot) : ∃ front back,
    p.handles = front ++ slot.handles.map (b, ·) ++ back ∧
      ∀ slot', (p.setSlot b slot').handles = front ++ slot'.handles.map (b, ·) ++ back := by
  obtain ⟨front, back, h⟩ := exists_flatMap_set hb fun x => x.1.handles.map (x.2, ·)
  have hset (slot' : Slot α) : (p.setSlot b slot').handles = front ++ slot'.handles.map (b, ·) ++
      (back ++ p.entries.map fun e => (e.backend, e.thread)) := by
    rw [Process.handles, Process.setSlot, h, List.append_assoc]
  have hself : p.backends.set b slot = p.backends := by
    obtain ⟨hlt, rfl⟩ := List.getElem?_eq_some_iff.1 hb
    exact List.set_getElem_self hlt
  refine ⟨front, _, ?_, hset⟩
  rw [← hset, Process.setSlot, hself]

theorem workerCount_setSlot (hb : p.backends[b]? = some slot) (slot' : Slot α) (c : Nat) :
    (p.setSlot b slot').workerCount c = if c = b then slot'.backend.workers.length else p.workerCount c := by
  unfold workerCount Process.setSlot
  by_cases hc : c = b
  · rw [if_pos hc, hc, List.getElem?_set_self (List.getElem?_eq_some_iff.1 hb).1]
    rfl
  · rw [if_neg hc, List.getElem?_set_ne (Ne.symm hc)]

theorem workerCount_of (hb : p.backends[b]? = some slot) : p.workerCount b = slot.backend.workers.length := by
  rw [workerCount, hb]
  rfl

theorem slots_set (h : p.Inv) (hok : slot'.Ok) (c : Nat) (x : Slot α)
    (hc : (p.backends.set b slot')[c]? = some x) : x.Ok := by
  obtain ⟨-, rfl⟩ | ⟨-, hc⟩ := get_set hc
  · exact hok
  · exact h.slots c x hc

theorem Inv.setSlot_made (h : p.Inv) (hb : p.backends[b]? = some slot)
    (hlen : slot'.backend.workers.length = slot.backend.workers.length) (c i : Nat) :
    p.threads.count (.acquire (c, i)) = if i < (p.setSlot b slot').workerCount c then 1 else 0 := by
  have hcount : (p.setSlot b slot').workerCount c = p.workerCount c := by
    rw [workerCount_setSlot hb, hlen, ← workerCount_of hb]
    split
    · next hc => rw [hc]
    · rfl
  rw [h.made, hcount]

/-- A step that moves no handle of a backend. -/
theorem Inv.setSlot (h : p.Inv) (hb : p.backends[b]? = some slot) (hok : slot'.Ok)
    (hev : slot.Evolves slot') (hlen : slot'.backend.workers.length = slot.backend.workers.length)
    (hhandles : slot'.handles = slot.handles) : (p.setSlot b slot').Inv where
  slots := slots_set h hok
  entries e he := (h.entries e he).evolves (.set hb hev)
  fresh := h.fresh
  keeps := by
    obtain ⟨front, back, hp, hset⟩ := handles_setSlot hb
    rw [hset, hhandles, ← hp]
    exact h.keeps
  made := h.setSlot_made hb hlen
  joined x hx := (h.joined x hx).evolves (.set hb hev)
  terminated := h.terminated

/-- A thread is made. -/
theorem Inv.created (h : p.Inv) (hb : p.backends[b]? = some slot) (hok : slot'.Ok)
    (hev : slot.Evolves slot') (hlen : slot'.backend.workers.length = slot.backend.workers.length + 1)
    (hnone : slot.handles = []) (hone : slot'.handles = [slot.backend.workers.length]) :
    Inv { p.setSlot b slot' with threads := p.threads ++ [.acquire (b, slot.backend.workers.length)] } where
  slots := slots_set h hok
  entries e he := (h.entries e he).evolves (.set hb hev)
  fresh := by
    refine throughout_snoc.2 ⟨h.fresh, fun hheld => ?_⟩
    have hpos := List.count_pos_iff.2 (mem_of_held hheld)
    rw [h.made, workerCount_of hb] at hpos
    simp at hpos
  keeps := by
    obtain ⟨front, back, hp, hset⟩ := handles_setSlot hb
    have hkeeps := h.keeps
    rw [hp, hnone] at hkeeps
    refine (hkeeps.acquire (b, slot.backend.workers.length)).perm ?_
    show List.Perm _ (p.setSlot b slot').handles
    rw [hset, hone]
    simpa using List.perm_middle.symm
  made c i := by
    show (p.threads ++ _).count _ = if i < (p.setSlot b slot').workerCount c then 1 else 0
    rw [workerCount_setSlot hb, hlen, List.count_append, h.made, List.count_singleton]
    by_cases hc : c = b
    · subst hc
      rw [workerCount_of hb]
      simp only [beq_iff_eq, Op.acquire.injEq, Prod.mk.injEq, true_and, if_true]
      split_ifs <;> omega
    · have hne : ¬ (b = c ∧ slot.backend.workers.length = i) := fun he => hc he.1.symm
      simp [hc, hne]
  joined x hx := by
    obtain hx | hx := List.mem_append.1 hx
    · exact (h.joined x hx).evolves (.set hb hev)
    · cases List.mem_singleton.1 hx
  terminated := h.terminated

/-- A `stop` joins its thread. -/
theorem Inv.joins (h : p.Inv) (hb : p.backends[b]? = some slot) (hok : slot'.Ok)
    (hev : slot.Evolves slot') (hlen : slot'.backend.workers.length = slot.backend.workers.length) {i : Nat}
    (hone : slot.handles = [i]) (hnone : slot'.handles = [])
    (he : ∃ w, slot.backend.workers[i]? = some w ∧ w.pc = .exited) :
    Inv { p.setSlot b slot' with threads := p.threads ++ [.release (some (b, i))] } where
  slots := slots_set h hok
  entries e he := (h.entries e he).evolves (.set hb hev)
  fresh := throughout_snoc.2 ⟨h.fresh, trivial⟩
  keeps := by
    obtain ⟨front, back, hp, hset⟩ := handles_setSlot hb
    have hkeeps := h.keeps
    rw [hp, hone] at hkeeps
    have hfirst : (front ++ [i].map (b, ·) ++ back).Perm ((b, i) :: (front ++ back)) := by simp
    refine ((hkeeps.perm hfirst).release).perm ?_
    show List.Perm _ (p.setSlot b slot').handles
    rw [hset, hnone]
    simp
  made c j := by
    rw [List.count_append]
    exact h.setSlot_made hb hlen c j
  joined x hx := by
    refine AtEnd.evolves (p := p) ?_ (.set hb hev)
    obtain hx | hx := List.mem_append.1 hx
    · exact h.joined x hx
    · cases List.mem_singleton.1 hx
      obtain ⟨w, hi, he⟩ := he
      exact ⟨slot, w, hb, hi, he⟩
  terminated := h.terminated

/-- A step that only the registry or the main thread makes. -/
theorem Inv.of_backends (h : p.Inv) (hb : q.backends = p.backends) (hentries : ∀ e ∈ q.entries, p.Known e)
    (hfresh : Throughout Fresh q.threads) (hkeeps : Ledger.Keeps [] [] q.handles q.threads)
    (hmade : ∀ x, q.threads.count (.acquire x) = p.threads.count (.acquire x))
    (hjoined : ∀ x, .release (some x) ∈ q.threads → p.AtEnd x) (ht : q.terminated = p.terminated) : q.Inv where
  slots b slot hslot := h.slots b slot (hb ▸ hslot)
  entries e he := (hentries e he).evolves (by rw [hb]; exact .refl _)
  fresh := hfresh
  keeps := hkeeps
  made b i := by
    have hcount : q.workerCount b = p.workerCount b := by rw [workerCount, workerCount, hb]
    rw [hmade, h.made, hcount]
  joined x hx := (hjoined x hx).evolves (by rw [hb]; exact .refl _)
  terminated := ht.trans h.terminated

theorem Inv.call (h : p.Inv) (hb : p.backends[b]? = some slot) {act : DefaultInstanceExecutionBackend.Act α}
    {t : DefaultInstanceExecutionBackend α} (hp : permits p.main slot act = true)
    (ht : slot.backend.step act = some t) : (p.call b slot act t).Inv := by
  have hslot := h.slots b slot hb
  obtain ⟨hok, hstep⟩ := hslot.step hp ht
  have hev : slot.Evolves (slot.after act t) := .of_step hslot.inv ht Slot.after_backend
  have hnot := not_overwrites hslot.inv ht
  cases hstep with
  | keeps hops hlen hhandles =>
    have heq : p.call b slot act t = p.setSlot b (slot.after act t) := by
      simp [Process.call, hops, hnot, Process.setSlot]
    rw [heq]
    exact h.setSlot hb hok hev hlen hhandles
  | creates hops hlen hnone hone =>
    have heq : p.call b slot act t = { p.setSlot b (slot.after act t) with
        threads := p.threads ++ [.acquire (b, slot.backend.workers.length)] } := by
      simp [Process.call, hops, hnot, Process.setSlot]
    rw [heq]
    exact h.created hb hok hev hlen hnone hone
  | joins i hops hlen hone hnone he =>
    have heq : p.call b slot act t = { p.setSlot b (slot.after act t) with
        threads := p.threads ++ [.release (some (b, i))] } := by
      simp [Process.call, hops, hnot, Process.setSlot]
    rw [heq]
    exact h.joins hb hok hev hlen hone hnone he

theorem Inv.destroy (h : p.Inv) (hb : p.backends[b]? = some slot) (hmain : p.main.hosting = true)
    (hlife : slot.life = .alive) (hc : slot.backend.caller = .idle) :
    (p.setSlot b { slot with backend := slot.backend.stop, life := .ending }).Inv := by
  have hslot := h.slots b slot hb
  have ht : slot.backend.step .stop = some slot.backend.stop := by
    simp only [DefaultInstanceExecutionBackend.step, hc]
  have hpermits : permits p.main slot .stop = true := by simp [permits, hmain, hlife]
  obtain ⟨hok, hstep⟩ := hslot.step hpermits ht
  have hok' : ({ slot with backend := slot.backend.stop, life := .ending } : Slot α).Ok :=
    ⟨hok.inv, hok.marked, hok.adopted, fun _ => stop_halting hslot.inv hc⟩
  have hev : slot.Evolves { slot with backend := slot.backend.stop, life := .ending } := .of_step hslot.inv ht rfl
  cases hstep with
  | keeps _ hlen hhandles => exact h.setSlot hb hok' hev hlen hhandles
  | creates hops => cases hops
  | joins i hops => cases hops

theorem Inv.destroyed (h : p.Inv) (hb : p.backends[b]? = some slot) (hlife : slot.life = .ending)
    (hc : slot.backend.caller = .idle) : Inv { p.setSlot b { slot with life := .ended } with
      terminated := p.terminated || slot.backend.thread.isSome } := by
  have hslot := h.slots b slot hb
  have hhalting := hslot.ending (by rw [hlife]; nofun)
  -- the destructor's `stop` has left no thread behind
  have hthread := hhalting.thread hslot.inv hc
  have hok : ({ slot with life := .ended } : Slot α).Ok :=
    ⟨hslot.inv, hslot.marked, hslot.adopted, fun _ => hhalting⟩
  have hset := h.setSlot hb hok (.of_eq rfl) rfl rfl
  exact { hset with terminated := by rw [hthread]; simp [h.terminated] }

theorem Inv.adopt (h : p.Inv) (hb : p.backends[b]? = some slot) {k i : Nat}
    (hc : slot.backend.caller = .stopReplace k i) (hadopted : slot.adopted = false) :
    Inv { p.setSlot b { slot with adopted := true } with entries := p.entries ++ [⟨b, i, k⟩] } := by
  have hslot := h.slots b slot hb
  have hcaller := hslot.inv.caller
  rw [hc] at hcaller
  obtain ⟨w, hr⟩ := hcaller
  have hone : slot.handles = [i] := by
    rw [Slot.handles_eq hadopted, DefaultInstanceExecutionBackend.handles, hr.thread, hc]
    rfl
  have hnone : ({ slot with adopted := true } : Slot α).handles = [] := by
    show slot.backend.thread.toList ++ [] = []
    rw [hr.thread]
    rfl
  have hok : ({ slot with adopted := true } : Slot α).Ok :=
    ⟨hslot.inv, hslot.marked, fun _ => ⟨k, i, hc⟩, hslot.ending⟩
  refine ⟨slots_set h hok, fun e he => ?_, h.fresh, ?_, h.setSlot_made hb rfl, fun x hx => ?_, h.terminated⟩
  · refine Known.evolves (p := p) ?_ (.set hb (.of_eq rfl))
    obtain he | he := List.mem_append.1 he
    · exact h.entries e he
    · obtain rfl := List.mem_singleton.1 he
      exact ⟨slot, hb, w, hr.serves.get, hr.serves.state.trans hr.state.symm, .inr hc⟩
  · obtain ⟨front, back, hp, hset⟩ := handles_setSlot hb
    have hkeeps := h.keeps
    rw [hp, hone] at hkeeps
    refine hkeeps.perm ?_
    have hnew : Process.handles { p.setSlot b { slot with adopted := true } with
        entries := p.entries ++ [⟨b, i, k⟩] } =
          (p.setSlot b { slot with adopted := true }).handles ++ [(b, i)] := by
      simp [Process.handles, Process.setSlot]
    rw [hnew, hset, hnone, List.append_assoc, List.map_singleton, List.singleton_append, List.map_nil,
      List.append_nil]
    exact List.perm_middle.trans (List.perm_append_singleton _ _).symm
  · exact (h.joined x hx).evolves (.set hb (.of_eq rfl))

theorem Inv.backend (h : p.Inv) : Inv { p with backends := p.backends ++ [({} : Slot α)] } := by
  have hev : Evolves p.backends (p.backends ++ [({} : Slot α)]) := fun b slot hb =>
    ⟨slot, (List.getElem?_append_left (List.getElem?_eq_some_iff.1 hb).1).trans hb, .of_eq rfl⟩
  refine ⟨fun b slot hb => ?_, fun e he => (h.entries e he).evolves hev, h.fresh, ?_, fun b i => ?_,
    fun x hx => (h.joined x hx).evolves hev, h.terminated⟩
  · obtain hb | rfl := get_snoc hb
    · exact h.slots b slot hb
    · exact .new
  · have hsame : Process.handles { p with backends := p.backends ++ [({} : Slot α)] } = p.handles := by
      simp only [Process.handles, List.zipIdx_append, List.flatMap_append]
      simp [Slot.handles, Caller.thread]
    rw [hsame]
    exact h.keeps
  · have hcount : workerCount { p with backends := p.backends ++ [({} : Slot α)] } b = p.workerCount b := by
      unfold workerCount
      obtain hlt | hle := Nat.lt_or_ge b p.backends.length
      · rw [List.getElem?_append_left hlt]
      · -- the new backend has had no worker yet
        rw [List.getElem?_append_right hle, List.getElem?_eq_none hle, List.getElem?_singleton]
        split <;> simp
    rw [hcount]
    exact h.made b i

theorem step_inv (h : p.Inv) (ht : p.step a = some q) : q.Inv := by
  cases step_cases ht with
  | new hm => exact h.backend
  | call hb hp ht' => exact h.call hb hp ht'
  | adopt hb hc ha hr => exact h.adopt hb hc ha
  | destroy hb hm hl hc => exact h.destroy hb hm hl hc
  | destroyed hb hl hc => exact h.destroyed hb hl hc
  | reap hr hm => exact h.of_backends rfl h.entries h.fresh h.keeps (fun _ => rfl) h.joined rfl
  | @joins r e hr he hx hret =>
    have hsplit : p.entries = p.entries.take r.it ++ e :: p.entries.drop (r.it + 1) := by
      obtain ⟨hlt, rfl⟩ := List.getElem?_eq_some_iff.1 he
      simp
    refine h.of_backends rfl (fun e' he' => h.entries e' (List.mem_of_mem_eraseIdx he'))
      (throughout_snoc.2 ⟨h.fresh, trivial⟩) ?_ (fun x => List.count_append) (fun x hx => ?_) rfl
    · have hkeeps := h.keeps
      have hfirst : p.handles.Perm ((e.backend, e.thread) :: Process.handles { p with
          entries := p.entries.eraseIdx r.it }) := by
        simp only [Process.handles, List.eraseIdx_eq_take_drop_succ]
        nth_rewrite 1 [hsplit]
        simp only [List.map_append, List.map_cons, ← List.append_assoc]
        exact List.perm_middle
      exact (hkeeps.perm hfirst).release
    · obtain hx | hx := List.mem_append.1 hx
      · exact h.joined x hx
      · cases List.mem_singleton.1 hx
        exact returned_iff.1 hret
  | passes hr he hx => exact h.of_backends rfl h.entries h.fresh h.keeps (fun _ => rfl) h.joined rfl
  | reaped hr he => exact h.of_backends rfl h.entries h.fresh h.keeps (fun _ => rfl) h.joined rfl
  | hostStarted hm => exact h.of_backends rfl h.entries h.fresh h.keeps (fun _ => rfl) h.joined rfl
  | hostFailed hm hall => exact h.of_backends rfl h.entries h.fresh h.keeps (fun _ => rfl) h.joined rfl
  | hostStopped hm hall => exact h.of_backends rfl h.entries h.fresh h.keeps (fun _ => rfl) h.joined rfl
  | returns hm hr => exact h.of_backends rfl h.entries h.fresh h.keeps (fun _ => rfl) h.joined rfl
  | exits hm hr => exact h.of_backends rfl h.entries h.fresh h.keeps (fun _ => rfl) h.joined rfl

theorem run_inv {as : List (Process.Act α)} (h : (machine α).run {} as = some p) : p.Inv :=
  Lts.Machine.run_inv (M := machine α) (fun _ _ _ h ht => step_inv h ht) .new h

/-- A thread that has been made is held in one place until it is joined, once. -/
theorem Inv.joins_once (h : p.Inv) {i : Nat} (hi : i < p.workerCount b) :
    p.threads.count (.release (some (b, i))) = if (b, i) ∈ p.handles then 0 else 1 := by
  have k := h.keeps h.fresh
  have hbalance := count_balance h.fresh k.legal (b, i)
  rw [h.made, if_pos hi] at hbalance
  simp only [k.held_eq, List.nil_append, List.mem_toFinset] at hbalance
  split_ifs at hbalance ⊢ <;> omega

/-- A thread that is still running is held. -/
theorem Inv.held (h : p.Inv) (hb : p.backends[b]? = some slot) {i : Nat} {w : Worker α}
    (hi : slot.backend.workers[i]? = some w) (hne : w.pc ≠ .exited) : (b, i) ∈ p.handles := by
  have hlt : i < p.workerCount b := by
    rw [workerCount_of hb]
    exact (List.getElem?_eq_some_iff.1 hi).1
  have honce := h.joins_once hlt
  by_contra hnot
  rw [if_neg hnot] at honce
  obtain ⟨slot', w', hb', hi', he⟩ := h.joined (b, i) (List.count_pos_iff.1 (by omega))
  obtain rfl : slot = slot' := Option.some.inj (hb.symm.trans hb')
  obtain rfl : w = w' := Option.some.inj (hi.symm.trans hi')
  exact hne he

/-- **Every thread is joined once, after its end.** Whatever the backends, their callers, the registry and
its users do, in any order and with any number of stops that time out: the process is not ended by a
thread handle that is destroyed or assigned to while it is joinable; each thread is held by one backend,
one `stop` or the registry until it is joined, and is joined once; only a thread that has come to its end
is joined; and a thread that has not is held. -/
theorem run_threads {as : List (Process.Act α)} (h : (machine α).run {} as = some p) :
    p.terminated = false ∧ Throughout Legal p.threads ∧ p.handles.Nodup ∧
      (∀ x, .release (some x) ∈ p.threads → p.AtEnd x) ∧
      ∀ (b : Nat) slot, p.backends[b]? = some slot → ∀ (i : Nat) w, slot.backend.workers[i]? = some w →
        p.threads.count (.acquire (b, i)) = 1 ∧
        p.threads.count (.release (some (b, i))) = (if (b, i) ∈ p.handles then 0 else 1) ∧
        (w.pc ≠ .exited → (b, i) ∈ p.handles) := by
  have hinv := run_inv h
  have k := hinv.keeps hinv.fresh
  refine ⟨hinv.terminated, k.legal, k.nodup, hinv.joined, fun b slot hb i w hi => ?_⟩
  have hlt : i < p.workerCount b := by
    rw [workerCount_of hb]
    exact (List.getElem?_eq_some_iff.1 hi).1
  exact ⟨by rw [hinv.made, if_pos hlt], hinv.joins_once hlt, hinv.held hb hi⟩

/-- Two backends: the `stop` of one times out, the other is joined and destroyed, and the registry joins
the abandoned worker later. -/
theorem run_threads_late :
    let as : List (Process.Act Nat) :=
      [.new, .new, .call 0 .start, .call 0 (.createThread none), .call 0 .setStarted, .call 1 .start,
        .call 1 (.createThread none), .call 1 .setStarted, .call 0 (.execute (some 1)), .call 0 (.lock 0),
        .call 0 (.work 0), .call 0 .stop, .call 0 .waited, .adopt 0, .reap false, .next, .call 0 .replace,
        .reaped, .destroy 1, .call 1 (.work 0), .call 1 (.work 0), .call 1 .waited, .call 1 .join, .call 1 .clear,
        .destroyed 1, .call 0 (.work 0), .call 0 (.work 0), .call 0 (.work 0), .reap false, .next, .reaped]
    ∃ p, (machine Nat).run {} as = some p ∧ p.threads.length = 4 ∧ p.terminated = false ∧
      Throughout Legal p.threads ∧ p.handles.Nodup := by
  intro as
  have hrun : ((machine Nat).run {} as).map (·.threads.length) = some 4 := rfl
  obtain ⟨p, hp, hlen⟩ := Option.map_eq_some_iff.1 hrun
  obtain ⟨hterminated, hlegal, hnodup, -⟩ := run_threads hp
  exact ⟨p, hp, hlen, hterminated, hlegal, hnodup⟩

end Process

end Phi.Host
