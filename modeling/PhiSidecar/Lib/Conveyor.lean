import Mathlib.Data.List.Basic
import Mathlib.Data.List.Perm.Basic
import PhiSidecar.Lib.Machine

/-!
# Conveyors: queues that may lose items

A `Conveyor` takes items in at the back, delivers them from the front and may lose any item on the
way. Whatever the run, what is delivered and pending is an order-preserving part of what was
accepted, and every accepted item is delivered, pending or lost, once (`run_tracked`). A queue with
any shedding policy, in any number of stages, is a conveyor: relate its stages' concatenation to
`pending` with an `Lts.Sim` into `Conveyor.machine`.
-/

set_option autoImplicit false

universe u

structure Conveyor (α : Type u) where
  accepted : List α := []
  pending : List α := []
  delivered : List α := []
  lost : List α := []

namespace Conveyor

open scoped List

variable {α : Type u}

inductive Act (α : Type u)
  /-- Take an item in. -/
  | accept (a : α)
  /-- Lose the pending item at a position. -/
  | lose (i : Nat)
  /-- Deliver the first pending item. -/
  | deliver

def step (s : Conveyor α) : Act α → Option (Conveyor α)
  | .accept a => some { s with accepted := s.accepted ++ [a], pending := s.pending ++ [a] }
  | .lose i =>
    s.pending[i]?.map fun a => { s with pending := s.pending.eraseIdx i, lost := s.lost ++ [a] }
  | .deliver =>
    match s.pending with
    | [] => none
    | a :: rest => some { s with pending := rest, delivered := s.delivered ++ [a] }

/-- The conveyor as a machine. -/
def machine (α : Type u) : Lts.Machine (Conveyor α) (Act α) := ⟨step⟩

/-- Order is kept and every item is accounted for once. -/
structure Tracked (s : Conveyor α) : Prop where
  order : (s.delivered ++ s.pending).Sublist s.accepted
  account : s.accepted.Perm (s.delivered ++ s.pending ++ s.lost)

theorem Tracked.init : Tracked ({} : Conveyor α) := ⟨.refl _, .refl _⟩

/-- One step keeps the account. -/
theorem Tracked.step {s t : Conveyor α} {a : Act α} (h : s.Tracked) (hs : s.step a = some t) :
    t.Tracked := by
  obtain ⟨hord, hacc⟩ := h
  cases a with
  | accept a =>
    cases hs
    refine ⟨?_, ?_⟩
    · rw [← List.append_assoc]
      exact hord.append (.refl _)
    · refine (hacc.append_right [a]).trans ?_
      simp only [List.append_assoc]
      exact (List.perm_append_comm.append_left _).append_left _
  | lose i =>
    obtain ⟨a, ha, rfl⟩ := Option.map_eq_some_iff.1 hs
    obtain ⟨hi, rfl⟩ := List.getElem?_eq_some_iff.1 ha
    refine ⟨?_, ?_⟩
    · exact ((List.eraseIdx_sublist s.pending i).append_left _).trans hord
    · refine hacc.trans ?_
      have hp := (List.getElem_cons_eraseIdx_perm hi).symm
      calc s.delivered ++ s.pending ++ s.lost
          _ ~ s.delivered ++ (s.pending[i] :: s.pending.eraseIdx i) ++ s.lost :=
            (hp.append_left _).append_right _
          _ ~ s.pending[i] :: (s.delivered ++ s.pending.eraseIdx i ++ s.lost) :=
            List.perm_middle.append_right _
          _ ~ s.delivered ++ s.pending.eraseIdx i ++ s.lost ++ [s.pending[i]] :=
            (List.perm_append_singleton _ _).symm
          _ = s.delivered ++ s.pending.eraseIdx i ++ (s.lost ++ [s.pending[i]]) :=
            List.append_assoc _ _ _
  | deliver =>
    obtain ⟨accepted, pending, delivered, lost⟩ := s
    cases pending with
    | nil => cases hs
    | cons a rest =>
      cases hs
      simp only at hord hacc
      have he : delivered ++ [a] ++ rest = delivered ++ a :: rest := by simp
      exact ⟨by rw [he]; exact hord, by rw [he]; exact hacc⟩

/-- **Every run keeps order and account**. -/
theorem run_tracked {s : Conveyor α} {as : List (Act α)}
    (h : (machine α).run {} as = some s) : s.Tracked :=
  Lts.Machine.run_inv (fun _ _ _ => Tracked.step) .init h

/-- The run that loses all items from position `n` on. -/
theorem run_lose_from (s : Conveyor α) {front back : List α} (h : s.pending = front ++ back) :
    (machine α).run s (back.map fun _ => .lose front.length) =
      some { s with pending := front, lost := s.lost ++ back } := by
  induction back generalizing s with
  | nil => simp only [List.append_nil] at h; simp [← h]
  | cons b back ih =>
    have hs : (machine α).step s (.lose front.length) =
        some { s with pending := front ++ back, lost := s.lost ++ [b] } := by
      simp [machine, step, h, List.eraseIdx_append_of_length_le]
    rw [List.map_cons, Lts.Machine.run_cons, hs, Option.bind_some, ih _ rfl]
    simp

/-- The run that loses the first items. -/
theorem run_lose_front (s : Conveyor α) {front back : List α} (h : s.pending = front ++ back) :
    (machine α).run s (front.map fun _ => .lose 0) =
      some { s with pending := back, lost := s.lost ++ front } := by
  induction front generalizing s with
  | nil => simp only [List.nil_append] at h; simp [← h]
  | cons b front ih =>
    have hs : (machine α).step s (.lose 0) =
        some { s with pending := front ++ back, lost := s.lost ++ [b] } := by
      simp [machine, step, h]
    rw [List.map_cons, Lts.Machine.run_cons, hs, Option.bind_some, ih _ rfl]
    simp

end Conveyor
