import PhiSidecar.Lib.Cursor

/-!
# Computations that may read outside their data

A `Run` ends with a result or an error of its own, traps (reads or views something outside its
data), or spins (has no fuel left for a loop that has not ended). Reads and views are checked, a
loop has fuel, and `Run.of` is the run of a computation that can do neither.

* `isAt_eq`: a guarded read does not trap.
* `loop_follows`: **a loop whose measure falls computes what its specification says**, with fuel
  above the measure; the specification is a relation between a state and the result expected there.
  `scan_follows`: the measure is what is left before a bound.
* `scanWhile_eq`: a loop over a run of elements.
-/

set_option autoImplicit false

namespace Checked

inductive Run (ε α : Type)
  | ok (a : α)
  | error (e : ε)
  | trap
  | spin
  deriving DecidableEq

variable {ε ε' α β σ : Type}

namespace Run

def bind : Run ε α → (α → Run ε β) → Run ε β
  | .ok a, f => f a
  | .error e, _ => .error e
  | .trap, _ => .trap
  | .spin, _ => .spin

instance : Monad (Run ε) where
  pure := .ok
  bind := bind

def mapError (f : ε → ε') : Run ε α → Run ε' α
  | .ok a => .ok a
  | .error e => .error (f e)
  | .trap => .trap
  | .spin => .spin

def of : Except ε α → Run ε α
  | .ok a => .ok a
  | .error e => .error e

@[simp] theorem pure_eq (a : α) : (pure a : Run ε α) = .ok a := rfl

@[simp] theorem ok_bind (a : α) (f : α → Run ε β) : ((.ok a : Run ε α) >>= f) = f a := rfl

@[simp] theorem error_bind (e : ε) (f : α → Run ε β) : ((.error e : Run ε α) >>= f) = .error e := rfl

@[simp] theorem of_ok (a : α) : of (.ok a : Except ε α) = .ok a := rfl

@[simp] theorem of_error (e : ε) : of (.error e : Except ε α) = .error e := rfl

theorem mapError_of (f : ε → ε') (x : Except ε α) : (of x).mapError f = of (x.mapError f) := by
  cases x <;> rfl

end Run

/-! ## Reads and views -/

/-- The element at `i`; outside the list it is a trap. -/
def get (l : List α) (i : Nat) : Run ε α :=
  match l[i]? with
  | some a => .ok a
  | none => .trap

/-- `i < l.length && p l[i]`. -/
def isAt (p : α → Bool) (l : List α) (i : Nat) : Run ε Bool :=
  if i < l.length then do pure (p (← get l i)) else pure false

/-- The elements from `i` up to `j`; unless `i ≤ j ≤ l.length` it is a trap. -/
def view (l : List α) (i j : Nat) : Run ε (List α) :=
  if i ≤ j ∧ j ≤ l.length then .ok ((l.drop i).take (j - i)) else .trap

/-- At most `n` elements from `i` on; behind the end it is a trap. -/
def viewAtMost (l : List α) (i n : Nat) : Run ε (List α) :=
  if i ≤ l.length then .ok ((l.drop i).take n) else .trap

theorem get_of_some {l : List α} {i : Nat} {a : α} (h : l[i]? = some a) :
    get l i = (.ok a : Run ε α) := by
  rw [get, h]

theorem view_of_le {l : List α} {i j : Nat} (hij : i ≤ j) (hj : j ≤ l.length) :
    view l i j = (.ok ((l.drop i).take (j - i)) : Run ε (List α)) := if_pos ⟨hij, hj⟩

theorem viewAtMost_of_le {l : List α} {i : Nat} (n : Nat) (hi : i ≤ l.length) :
    viewAtMost l i n = (.ok ((l.drop i).take n) : Run ε (List α)) := if_pos hi

theorem isAt_eq (p : α → Bool) (l : List α) (i : Nat) :
    isAt p l i = (.ok (l[i]?.any p) : Run ε Bool) := by
  unfold isAt
  split
  · next h => rw [get_of_some (List.getElem?_eq_getElem h), List.getElem?_eq_getElem h]; rfl
  · next h => rw [List.getElem?_eq_none (Nat.le_of_not_lt h)]; rfl

theorem isAt_beq [DecidableEq α] (a : α) (l : List α) (i : Nat) :
    isAt (· == a) l i = (.ok (decide (l[i]? = some a)) : Run ε Bool) := by
  rw [isAt_eq]
  cases l[i]? <;> simp [beq_eq_decide]

/-! ## Loops -/

inductive Step (σ α : Type)
  | next (s : σ)
  | stop (a : α)

def loop (body : σ → Run ε (Step σ α)) : Nat → σ → Run ε α
  | 0, _ => .spin
  | fuel + 1, s => do
    match ← body s with
    | .next s => loop body fuel s
    | .stop a => pure a

/-- A round where `x` is expected in the end: it stops or fails with `x`, or goes on to a state of
which `N` holds. -/
def Round (N : σ → Prop) (x : Except ε α) : Run ε (Step σ α) → Prop
  | .ok (.next s) => N s
  | .ok (.stop a) => x = .ok a
  | .error e => x = .error e
  | .trap => False
  | .spin => False

theorem Round.mono {N N' : σ → Prop} {x : Except ε α} {r : Run ε (Step σ α)} (h : Round N x r)
    (hN : ∀ s, N s → N' s) : Round N' x r := by
  match r with
  | .ok (.next s) => exact hN s h
  | .ok (.stop a) => exact h
  | .error e => exact h
  | .trap => exact h
  | .spin => exact h

theorem loop_follows {body : σ → Run ε (Step σ α)} {R : σ → Except ε α → Prop} (μ : σ → Nat)
    (h : ∀ s x, R s x → Round (fun s' => μ s' < μ s ∧ R s' x) x (body s)) {fuel : Nat} {s : σ}
    {x : Except ε α} (hs : R s x) (hf : μ s < fuel) : loop body fuel s = .of x := by
  induction fuel generalizing s with
  | zero => omega
  | succ fuel ih =>
    have hround := h s x hs
    rw [loop]
    cases hb : body s with
    | ok step =>
      rw [hb] at hround
      cases step with
      | next s' => exact ih hround.2 (by have := hround.1; omega)
      | stop a =>
        cases hround
        rfl
    | error e =>
      rw [hb] at hround
      cases hround
      rfl
    | trap =>
      rw [hb] at hround
      exact hround.elim
    | spin =>
      rw [hb] at hround
      exact hround.elim

/-- A loop whose index grows and stays within a bound. -/
theorem scan_follows {body : σ → Run ε (Step σ α)} {R : σ → Except ε α → Prop} (pos : σ → Nat)
    {n : Nat} (h : ∀ s x, pos s ≤ n → R s x →
      Round (fun s' => pos s < pos s' ∧ pos s' ≤ n ∧ R s' x) x (body s))
    {fuel : Nat} {s : σ} {x : Except ε α} (hs : pos s ≤ n) (hR : R s x) (hf : n < fuel) :
    loop body fuel s = .of x := by
  refine loop_follows (R := fun s x => pos s ≤ n ∧ R s x) (fun s => n - pos s) ?_ ⟨hs, hR⟩
    (Nat.lt_of_le_of_lt (Nat.sub_le _ _) hf)
  rintro s x ⟨hs, hR⟩
  refine (h s x hs hR).mono fun s' hnext => ⟨?_, hnext.2⟩
  exact Nat.sub_lt_sub_left (Nat.lt_of_lt_of_le hnext.1 hnext.2.1) hnext.1

/-- `while (i < l.length && p l[i]) ++i`. -/
def scanWhile (p : α → Bool) (l : List α) (i : Nat) : Run ε Nat :=
  loop (fun i => do if ← isAt p l i then pure (.next (i + 1)) else pure (.stop i)) (l.length + 1) i

theorem scanWhile_eq (p : α → Bool) {l : List α} {i : Nat} (hi : i ≤ l.length) :
    scanWhile p l i = (.ok (i + ((l.drop i).takeWhile p).length) : Run ε Nat) := by
  refine scan_follows (R := fun i x => x = .ok (i + ((l.drop i).takeWhile p).length)) id ?_ hi rfl
    (Nat.lt_succ_self _)
  rintro i _ hi rfl
  rw [isAt_eq, Run.ok_bind]
  have hat : Cursor.At l i (l.drop i) := ⟨hi, rfl⟩
  cases hs : l.drop i with
  | nil =>
    rw [hs] at hat
    simp [hat.get, Round]
  | cons c s =>
    rw [hs] at hat
    by_cases hc : p c = true
    · have hnext : l.drop (i + 1) = s := hat.next.2
      simp only [hat.get, List.head?_cons, Option.any_some, hc, if_true, Run.pure_eq, Round, hnext,
        List.takeWhile_cons_of_pos, List.length_cons]
      exact ⟨Nat.lt_succ_self i, hat.lt, by congr 1; omega⟩
    · simp [hat.get, hc, Round]

end Checked
