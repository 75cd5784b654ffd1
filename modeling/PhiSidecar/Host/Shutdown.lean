import PhiSidecar.Host.ThreadHandlesProof

/-!
# How a process ends (`sidecar_main.cpp`: `runSidecarMain`)

When `host.stop()` has returned, in which every backend is stopped, in time or not, the registry holds every
thread that is left. `MainOk` follows the main thread from there on.

* `reap_alone`: a `reapFinished` never waits for a worker, and keeps exactly those that are still running.
* `run_exit`: **after a `host.stop()` the process returns from `main` only when no adapter code is running
  any more, and leaves at once only if some was when `host.stop()` returned**.

A `host.start()` that fails does not come so far. The process returns 1, whatever the registry holds.
-/

set_option autoImplicit false

namespace Phi.Host

universe u

theorem DefaultInstanceExecutionBackend.step_idle {α : Type u} {s t : DefaultInstanceExecutionBackend α}
    {a : DefaultInstanceExecutionBackend.Act α} (hinv : s.Inv) (hc : s.caller = .idle) (hstart : a ≠ .start)
    (hstop : a ≠ .stop) (ht : s.step a = some t) : t.caller = .idle := by
  cases DefaultInstanceExecutionBackend.step_cases ht with
  | empty => exact hc
  | execute task => exact hc
  | @lock k call hcall =>
    exact (push_frame { s with executing := s.executing.eraseIdx k } call.1 call.2).2.1.trans hc
  | start hc' => exact absurd rfl hstart
  | createThread failure hc' => cases hc.symm.trans hc'
  | setStarted hc' => cases hc.symm.trans hc'
  | stop hc' => exact absurd rfl hstop
  | exited hc' hx => cases hc.symm.trans hc'
  | timedOut hc' => cases hc.symm.trans hc'
  | join hc' => cases hc.symm.trans hc'
  | clear hc' => cases hc.symm.trans hc'
  | replace hc' => cases hc.symm.trans hc'
  | @work i w _ hi hw =>
    obtain ⟨state', w', -, rfl⟩ := DefaultInstanceExecutionBackend.work_step (hinv.worker i w hi) hw
    exact hc

namespace Process

open AbandonedThreadRegistry DefaultInstanceExecutionBackend Ledger

variable {α : Type u} {p q : Process α} {e : Entry} {a : Process.Act α} {r : Reaping}

/-! ## The registry alone -/

/-- The registry sees when a thread has come to its end. -/
theorem Known.hasExited (h : p.Known e) (hinv : p.Inv) :
    p.hasExited e = true ↔ p.AtEnd (e.backend, e.thread) := by
  obtain ⟨slot, hb, he⟩ := h
  have hslot := hinv.slots _ _ hb
  unfold Process.hasExited AtEnd
  rw [hb]
  simp only [Option.map_some, beq_iff_eq, Option.some.injEq]
  rw [he.hasExited hslot.inv hslot.marked]
  refine ⟨fun ⟨w, hi, hx⟩ => ⟨slot, w, rfl, hi, hx⟩, fun ⟨slot', w, hs, hi, hx⟩ => ?_⟩
  cases hs
  exact ⟨w, hi, hx⟩

/-- **A `reapFinished` returns by its own steps, and keeps the threads that are still running.** -/
theorem reap_alone (h : p.Inv) (hr : p.reaping = some r) :
    ∃ q, (machine α).run p (List.replicate (p.entries.length - r.it) .next ++ [.reaped]) = some q ∧
      q.entries = p.entries.take r.it ++
        (p.entries.drop r.it).filter fun e => !p.returned (e.backend, e.thread) := by
  generalize hn : p.entries.length - r.it = n
  induction n generalizing p r with
  | zero =>
    have hle : p.entries.length ≤ r.it := by omega
    have hstep : p.step .reaped = some (p.reaped r) := by
      simp only [Process.step, hr, Option.bind_some, List.getElem?_eq_none hle]
    refine ⟨p.reaped r, ?_, ?_⟩
    · show (p.step .reaped).bind _ = _
      rw [hstep]
      rfl
    · rw [List.drop_eq_nil_of_le hle, List.take_of_length_le hle]
      simp [Process.reaped]
  | succ n ih =>
    have hlt : r.it < p.entries.length := by omega
    obtain ⟨e, he⟩ : ∃ e, p.entries[r.it]? = some e := ⟨_, List.getElem?_eq_getElem hlt⟩
    have hknown := h.entries e (List.mem_of_getElem? he)
    have hdrop : p.entries.drop r.it = e :: p.entries.drop (r.it + 1) := by
      rw [List.drop_eq_getElem_cons hlt]
      obtain ⟨_, rfl⟩ := List.getElem?_eq_some_iff.1 he
      rfl
    -- one turn, and the rest by induction
    have hturn {p' : Process α} (ht : p.step .next = some p') {r' : Reaping} (hr' : p'.reaping = some r')
        (hn' : p'.entries.length - r'.it = n) : ∃ q,
        (machine α).run p (List.replicate (n + 1) .next ++ [.reaped]) = some q ∧
          q.entries = p'.entries.take r'.it ++
            (p'.entries.drop r'.it).filter fun e => !p'.returned (e.backend, e.thread) := by
      obtain ⟨q, hq, hentries⟩ := ih (step_inv h ht) hr' hn'
      refine ⟨q, ?_, hentries⟩
      show (p.step .next).bind _ = _
      rw [ht]
      exact hq
    by_cases hx : p.hasExited e = true
    · have hret : p.returned (e.backend, e.thread) = true := returned_iff.2 ((hknown.hasExited h).1 hx)
      have hstep : p.step .next = some { p with
          entries := p.entries.eraseIdx r.it
          threads := p.threads ++ [.release (some (e.backend, e.thread))] } := by
        simp only [Process.step, hr, he, Option.bind_some, Process.next, if_pos hx, if_pos hret]
      obtain ⟨q, hq, hentries⟩ := hturn hstep hr (by
        simp only [List.length_eraseIdx, if_pos hlt]
        omega)
      refine ⟨q, hq, hentries.trans ?_⟩
      have hlen : (p.entries.take r.it).length = r.it := List.length_take_of_le hlt.le
      show (p.entries.eraseIdx r.it).take r.it ++
        ((p.entries.eraseIdx r.it).drop r.it).filter (fun e => !p.returned (e.backend, e.thread)) = _
      rw [List.eraseIdx_eq_take_drop_succ, List.take_left' hlen, List.drop_left' hlen, hdrop, List.filter_cons,
        hret]
      rfl
    · have hret : p.returned (e.backend, e.thread) = false := by
        rw [Bool.eq_false_iff]
        exact fun hend => hx ((hknown.hasExited h).2 (returned_iff.1 hend))
      have hstep : p.step .next = some { p with reaping := some { r with it := r.it + 1 } } := by
        simp only [Process.step, hr, he, Option.bind_some, Process.next, if_neg hx]
      obtain ⟨q, hq, hentries⟩ := hturn hstep rfl (by
        show p.entries.length - (r.it + 1) = n
        omega)
      refine ⟨q, hq, hentries.trans ?_⟩
      show p.entries.take (r.it + 1) ++
        (p.entries.drop (r.it + 1)).filter (fun e => !p.returned (e.backend, e.thread)) = _
      rw [List.take_add_one, he, hdrop, List.filter_cons, hret]
      simp

/-! ## After `host.stop()` -/

/-- Every backend has been stopped, and its lifecycle is over. -/
def Settled (p : Process α) : Prop :=
  ∀ (b : Nat) slot, p.backends[b]? = some slot → slot.backend.caller = .idle ∧ slot.backend.Halting

/-- No backend has a worker that it had not before. -/
def NoNewer (l l' : List (Slot α)) : Prop :=
  ∀ (b : Nat) slot', l'[b]? = some slot' → ∃ slot, l[b]? = some slot ∧ slot.Evolves slot' ∧
    slot'.backend.workers.length = slot.backend.workers.length

theorem NoNewer.refl (l : List (Slot α)) : NoNewer l l := fun _ slot hb => ⟨slot, hb, .of_eq rfl, rfl⟩

theorem NoNewer.set {l : List (Slot α)} {b : Nat} {slot slot' : Slot α} (hb : l[b]? = some slot)
    (hev : slot.Evolves slot') (hlen : slot'.backend.workers.length = slot.backend.workers.length) :
    NoNewer l (l.set b slot') := by
  intro c x hc
  obtain ⟨rfl, rfl⟩ | ⟨-, hc⟩ := get_set hc
  · exact ⟨slot, hb, hev, hlen⟩
  · exact ⟨x, hc, .of_eq rfl, rfl⟩

theorem Settled.of_atRest (h : ∀ slot ∈ p.backends, slot.atRest = true) : p.Settled := by
  intro b slot hb
  have hrest := h slot (List.mem_of_getElem? hb)
  simp only [Slot.atRest, Bool.and_eq_true, isIdle_iff, Bool.not_eq_true'] at hrest
  obtain ⟨hc, hserving⟩ := hrest
  exact ⟨hc, hserving, by rw [hc]; nofun, by rw [hc]; nofun⟩

/-- **After `host.stop()` no thread is made, none is handed to the registry, and nothing is started.** -/
theorem Settled.step (h : p.Settled) (hinv : p.Inv) (hmain : p.main.hosting = false) (ht : p.step a = some q) :
    q.Settled ∧ q.entries.length ≤ p.entries.length ∧ NoNewer p.backends q.backends := by
  cases step_cases ht with
  | new hm => cases hmain.symm.trans hm
  | @call b slot act t hb hp hstep =>
    obtain ⟨hc, hhalting⟩ := h b slot hb
    have hslot := hinv.slots b slot hb
    have hstart : act ≠ .start := by
      rintro rfl
      simp [permits, hmain] at hp
    have hstop : act ≠ .stop := by
      rintro rfl
      simp [permits, hmain] at hp
    have hidle := step_idle hslot.inv hc hstart hstop hstep
    have hhalting' := step_halting hhalting hslot.inv hstart hstep
    refine ⟨fun c x hx => ?_, Nat.le_refl _, .set hb (.of_step hslot.inv hstep Slot.after_backend) ?_⟩
    · obtain ⟨-, rfl⟩ | ⟨-, hx⟩ := get_set hx
      · rw [Slot.after_backend]
        exact ⟨hidle, hhalting'⟩
      · exact h c x hx
    · cases (hslot.step hp hstep).2 with
      | keeps _ hlen => exact hlen
      | joins _ _ hlen => exact hlen
      | creates hops hlen =>
        -- only `start` makes a thread
        cases step_handles hslot.inv hstep with
        | keeps _ hops' => cases hops.symm.trans hops'
        | creates _ _ hc' => exact absurd hc' hhalting.startThread
        | joins _ hops' => cases hops.symm.trans hops'
        | forgets _ hops' => cases hops.symm.trans hops'
  | adopt hb hc' => cases (h _ _ hb).1.symm.trans hc'
  | destroy hb hm => cases hmain.symm.trans hm
  | @destroyed b slot hb hl hc =>
    refine ⟨fun c x hx => ?_, Nat.le_refl _, .set hb (.of_eq rfl) rfl⟩
    obtain ⟨-, rfl⟩ | ⟨-, hx⟩ := get_set hx
    · exact h b slot hb
    · exact h c x hx
  | reap hr hm => exact ⟨h, Nat.le_refl _, .refl _⟩
  | joins hr he hx hret => exact ⟨h, List.length_eraseIdx_le _ _, .refl _⟩
  | passes hr he hx => exact ⟨h, Nat.le_refl _, .refl _⟩
  | reaped hr he => exact ⟨h, Nat.le_refl _, .refl _⟩
  | hostStarted hm => rw [hm] at hmain; cases hmain
  | hostFailed hm hall => rw [hm] at hmain; cases hmain
  | hostStopped hm hall => rw [hm] at hmain; cases hmain
  | returns hm hr => exact ⟨h, Nat.le_refl _, .refl _⟩
  | exits hm hr => exact ⟨h, Nat.le_refl _, .refl _⟩

/-- What the main thread can rely on, depending on where it is. -/
structure MainOk (p : Process α) : Prop where
  hosting : p.main.hosting = true → p.reaping.any (·.main) = false
  settled : p.main.hosting = false → p.Settled
  grace : ∀ n, p.main = .grace (some n) → p.entries.length ≤ n
  returned : p.main = .returned → p.entries = []

theorem MainOk.new : ({} : Process α).MainOk := ⟨fun _ => rfl, nofun, nofun, nofun⟩

/-- The main thread stays where it is. -/
theorem MainOk.stay (h : p.MainOk) (hinv : p.Inv) (ht : p.step a = some q) (hmain : q.main = p.main)
    (hreaping : p.main.hosting = true → q.reaping.any (·.main) = false) : q.MainOk := by
  have hsettled (hm : p.main.hosting = false) := (h.settled hm).step hinv hm ht
  refine ⟨fun hm => hreaping (hmain ▸ hm), fun hm => (hsettled (hmain ▸ hm)).1, fun n hn => ?_, fun hr => ?_⟩
  · rw [hmain] at hn
    exact (hsettled (by rw [hn]; rfl)).2.1.trans (h.grace n hn)
  · rw [hmain] at hr
    have hle := (hsettled (by rw [hr]; rfl)).2.1
    rw [h.returned hr] at hle
    exact List.eq_nil_of_length_eq_zero (Nat.le_zero.1 hle)

theorem step_main (h : p.MainOk) (hinv : p.Inv) (ht : p.step a = some q) : q.MainOk := by
  cases step_cases ht with
  | new hm => exact h.stay hinv ht rfl h.hosting
  | call hb hp hstep => exact h.stay hinv ht rfl h.hosting
  | adopt hb hc ha hr => exact h.stay hinv ht rfl h.hosting
  | destroy hb hm hl hc => exact h.stay hinv ht rfl h.hosting
  | destroyed hb hl hc => exact h.stay hinv ht rfl h.hosting
  | @reap main hr hm =>
    refine h.stay hinv ht rfl fun hhost => ?_
    cases main with
    | false => rfl
    | true =>
      obtain ⟨left, hg, -⟩ := hm rfl
      rw [hg] at hhost
      cases hhost
  | joins hr he hx hret => exact h.stay hinv ht rfl h.hosting
  | @passes r e hr he hx =>
    refine h.stay hinv ht rfl fun hhost => ?_
    have hany := h.hosting hhost
    rw [hr] at hany
    exact hany
  | @reaped r hr he =>
    cases hm : r.main with
    | false =>
      refine h.stay hinv ht ?_ fun _ => rfl
      rw [Process.reaped, hm]
      rfl
    | true =>
      -- the main thread is past its loop
      have hhost : p.main.hosting = false := by
        rw [Bool.eq_false_iff]
        intro hhost
        have hany := h.hosting hhost
        rw [hr, Option.any_some, hm] at hany
        cases hany
      have hmain : (p.reaped r).main = .grace (some p.entries.length) := by rw [Process.reaped, hm]; rfl
      refine ⟨fun hl => ?_, fun _ => h.settled hhost, fun n hn => ?_, fun hret => ?_⟩
      · rw [hmain] at hl
        cases hl
      · cases hmain.symm.trans hn
        exact Nat.le_refl _
      · cases hmain.symm.trans hret
  | hostStarted hm => exact ⟨fun _ => h.hosting (by rw [hm]; rfl), nofun, nofun, nofun⟩
  | hostFailed hm hall => exact ⟨nofun, fun _ => .of_atRest hall, nofun, nofun⟩
  | hostStopped hm hall => exact ⟨nofun, fun _ => .of_atRest hall, nofun, nofun⟩
  | returns hm hr =>
    refine ⟨nofun, fun _ => h.settled (by rw [hm]; rfl), nofun, fun _ => ?_⟩
    exact List.eq_nil_of_length_eq_zero (Nat.le_zero.1 (h.grace 0 hm))
  | exits hm hr => exact ⟨nofun, fun _ => h.settled (by rw [hm]; rfl), nofun, nofun⟩

theorem run_main {as : List (Process.Act α)} (h : (machine α).run {} as = some p) : p.Inv ∧ p.MainOk :=
  Lts.Machine.run_inv (M := machine α) (I := fun p => p.Inv ∧ p.MainOk)
    (fun _ _ _ h ht => ⟨step_inv h.1 ht, step_main h.2 h.1 ht⟩) ⟨.new, .new⟩ h

/-! ## When no thread is left running -/

def AllEnded (p : Process α) : Prop :=
  ∀ (b : Nat) slot, p.backends[b]? = some slot →
    ∀ (i : Nat) w, slot.backend.workers[i]? = some w → w.pc = .exited

theorem AllEnded.of_newer (h : p.AllEnded) (hnew : NoNewer p.backends q.backends) : q.AllEnded := by
  intro b slot' hb i w' hi
  obtain ⟨slot, hb', hev, hlen⟩ := hnew b slot' hb
  have hlt : i < slot.backend.workers.length := hlen ▸ (List.getElem?_eq_some_iff.1 hi).1
  have hw := List.getElem?_eq_getElem hlt
  obtain ⟨v, hv, he⟩ := hev.worker i _ hw
  obtain rfl : w' = v := Option.some.inj (hi.symm.trans hv)
  exact he (h b slot hb' i _ hw)

/-- The main thread after a `host.stop()` that has left no thread running. -/
structure Clean (p : Process α) : Prop where
  ended : p.AllEnded
  main : p.main.hosting = false
  it : ∀ r, p.reaping = some r → r.main = true → r.it = 0
  left : ∀ n, p.main = .grace (some n) → n = 0
  exited : p.main ≠ .exited

theorem step_clean (h : p.Clean) (hinv : p.Inv) (hm : p.MainOk) (ht : p.step a = some q) : q.Clean := by
  have hended := h.ended.of_newer ((hm.settled h.main).step hinv h.main ht).2.2
  cases step_cases ht with
  | new hl => cases h.main.symm.trans hl
  | call hb hp hstep => exact ⟨hended, h.main, h.it, h.left, h.exited⟩
  | adopt hb hc ha hr => exact ⟨hended, h.main, h.it, h.left, h.exited⟩
  | destroy hb hl => cases h.main.symm.trans hl
  | destroyed hb hl hc => exact ⟨hended, h.main, h.it, h.left, h.exited⟩
  | reap hr hg =>
    refine ⟨hended, h.main, fun r hr' _ => ?_, h.left, h.exited⟩
    cases hr'
    rfl
  | joins hr he hx hret => exact ⟨hended, h.main, h.it, h.left, h.exited⟩
  | @passes r e hr he hx =>
    -- the iterator passes no thread that has come to its end
    have hknown := hinv.entries e (List.mem_of_getElem? he)
    have ⟨slot, hb, w, hi, _⟩ := hknown
    have hend : p.hasExited e = true := (hknown.hasExited hinv).2 ⟨slot, w, hb, hi, h.ended _ _ hb _ _ hi⟩
    cases hx.symm.trans hend
  | @reaped r hr he =>
    cases hmain : r.main with
    | false =>
      have hsame : (p.reaped r).main = p.main := by rw [Process.reaped, hmain]; rfl
      refine ⟨hended, ?_, nofun, ?_, ?_⟩
      · rw [hsame]; exact h.main
      · rw [hsame]; exact h.left
      · rw [hsame]; exact h.exited
    | true =>
      have hzero : p.entries.length = 0 := by
        have hit := h.it r hr hmain
        omega
      have hgrace : (p.reaped r).main = .grace (some 0) := by rw [Process.reaped, hmain, hzero]; rfl
      refine ⟨hended, ?_, nofun, fun n hn => ?_, ?_⟩
      · rw [hgrace]; rfl
      · cases hgrace.symm.trans hn
        rfl
      · rw [hgrace]; nofun
  | hostStarted hl =>
    have hmain := h.main
    rw [hl] at hmain
    cases hmain
  | hostFailed hl =>
    have hmain := h.main
    rw [hl] at hmain
    cases hmain
  | hostStopped hl =>
    have hmain := h.main
    rw [hl] at hmain
    cases hmain
  | returns hg hr => exact ⟨hended, rfl, h.it, nofun, nofun⟩
  | exits hg hr => cases h.left _ hg

theorem MainOk.clean (hm : p.MainOk) (hended : p.AllEnded) (ht : p.step .hostStopped = some q) : q.Clean := by
  cases step_cases ht with
  | hostStopped hl hall =>
    refine ⟨hended, rfl, fun r hr hmain => ?_, nofun, nofun⟩
    have hany := hm.hosting (by rw [hl]; rfl)
    rw [show p.reaping = some r from hr, Option.any_some, hmain] at hany
    cases hany

/-- After `host.stop()`, or a failed `host.start()`, only the registry has threads. -/
theorem MainOk.handles (h : p.MainOk) (hinv : p.Inv) (hm : p.main.hosting = false) :
    p.handles = p.entries.map fun e => (e.backend, e.thread) := by
  have hsettled := h.settled hm
  rw [Process.handles, List.append_left_eq_self, List.flatMap_eq_nil_iff]
  intro x hx
  have hb : p.backends[x.2]? = some x.1 := List.mem_zipIdx_iff_getElem?.1 hx
  obtain ⟨hidle, hhalting⟩ := hsettled _ _ hb
  have hthread := hhalting.thread (hinv.slots _ _ hb).inv hidle
  rw [Slot.handles, hthread, hidle]
  simp [Caller.thread]

/-- **How a process ends.** In every run: a `reapFinished` returns by its own steps and keeps in the
registry exactly the threads that are still running; once `host.stop()` has returned, or `host.start()` has
failed, every thread that is still running is in the registry; when `runSidecarMain` returns 0, every worker
there has ever been has run all that it accepted, has come to its end and has been joined; and it leaves by
`_Exit` only if a thread was still running when `host.stop()` returned. -/
theorem run_exit {as : List (Process.Act α)} (h : (machine α).run {} as = some p) :
    (∀ r, p.reaping = some r → ∃ q,
      (machine α).run p (List.replicate (p.entries.length - r.it) .next ++ [.reaped]) = some q ∧
        q.entries = p.entries.take r.it ++
          (p.entries.drop r.it).filter fun e => !p.returned (e.backend, e.thread)) ∧
      (p.main.hosting = false → ∀ (b : Nat) slot, p.backends[b]? = some slot →
        ∀ (i : Nat) w, slot.backend.workers[i]? = some w → w.pc ≠ .exited →
          ∃ e ∈ p.entries, e.backend = b ∧ e.thread = i) ∧
      (p.main = .returned → p.handles = [] ∧ ∀ (b : Nat) slot, p.backends[b]? = some slot →
        ∀ (i : Nat) w, slot.backend.workers[i]? = some w → w.pc = .exited ∧ w.ended = w.accepted ∧
          p.threads.count (.release (some (b, i))) = 1) ∧
      (p.AllEnded → ∀ bs q, (machine α).run p (.hostStopped :: bs) = some q → q.main ≠ .exited) := by
  obtain ⟨hinv, hmain⟩ := run_main h
  refine ⟨fun r hr => reap_alone hinv hr, fun hm b slot hb i w hi hne => ?_, fun hr => ?_,
    fun hended bs q hq => ?_⟩
  · have hheld := hinv.held hb hi hne
    rw [hmain.handles hinv hm] at hheld
    obtain ⟨e, he, heq⟩ := List.mem_map.1 hheld
    cases heq
    exact ⟨e, he, rfl, rfl⟩
  · have hnone : p.handles = [] := by
      rw [hmain.handles hinv (by rw [hr]; rfl), hmain.returned hr]
      rfl
    refine ⟨hnone, fun b slot hb i w hi => ?_⟩
    have hlt : i < p.workerCount b := by
      rw [workerCount_of hb]
      exact (List.getElem?_eq_some_iff.1 hi).1
    have honce := hinv.joins_once hlt
    rw [hnone, if_neg List.not_mem_nil] at honce
    obtain ⟨slot', w', hb', hi', he⟩ := hinv.joined (b, i) (List.count_pos_iff.1 (by omega))
    obtain rfl : slot = slot' := Option.some.inj (hb.symm.trans hb')
    obtain rfl : w = w' := Option.some.inj (hi.symm.trans hi')
    exact ⟨he, ((hinv.slots b slot hb).inv.worker i w hi).done he, honce⟩
  · obtain ⟨t, ht, hq⟩ := Lts.Machine.run_cons_some hq
    have ht : p.step .hostStopped = some t := ht
    have hrun := Lts.Machine.run_inv (M := machine α) (I := fun p => p.Inv ∧ p.MainOk ∧ p.Clean)
      (fun _ _ _ h ht => ⟨step_inv h.1 ht, step_main h.2.1 h.1 ht, step_clean h.2.2 h.1 h.2.1 ht⟩)
      ⟨step_inv hinv ht, step_main hmain hinv ht, hmain.clean hended ht⟩ hq
    exact hrun.2.2.exited

/-- A `stop` times out, the worker comes to its end in the grace period, and the process returns. -/
theorem run_exit_late :
    let as : List (Process.Act Nat) :=
      [.new, .call 0 .start, .call 0 (.createThread none), .call 0 .setStarted, .call 0 (.execute (some 1)),
        .call 0 (.lock 0), .call 0 (.work 0), .call 0 .stop, .call 0 .waited, .adopt 0, .call 0 .replace,
        .hostStarted true, .hostStopped, .reap true, .next, .reaped, .call 0 (.work 0), .call 0 (.work 0),
        .call 0 (.work 0), .reap true, .next, .reaped, .leave false]
    ∃ p, (machine Nat).run {} as = some p ∧ p.main = .returned ∧ p.handles = [] ∧
      ∀ (b : Nat) slot, p.backends[b]? = some slot → ∀ (i : Nat) w, slot.backend.workers[i]? = some w →
        w.pc = .exited ∧ w.ended = w.accepted ∧ p.threads.count (.release (some (b, i))) = 1 := by
  intro as
  have hrun : ((machine Nat).run {} as).map (·.main) = some .returned := rfl
  obtain ⟨p, hp, hmain⟩ := Option.map_eq_some_iff.1 hrun
  exact ⟨p, hp, hmain, (run_exit hp).2.2.1 hmain⟩

end Process

end Phi.Host
