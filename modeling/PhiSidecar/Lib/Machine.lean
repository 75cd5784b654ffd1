import Mathlib.Data.List.Basic
import Mathlib.Data.List.Induction

/-!
# Guarded machines and their runs

A `Machine` is a partial step function on states and actions (`none`: the action is not enabled).
`M.run s as` performs the actions `as` from `s`; `M.Along ok s as` says that every action of the
run meets `ok` in the state it is taken in. The invariant rules (`run_inv`, `along_inv`) turn a
fact about one step into a fact about every reachable state; `Sim` carries runs from one machine
to another.
-/

set_option autoImplicit false

namespace Lts

universe u v w x

/-- A partial step function. -/
structure Machine (σ : Type u) (α : Type v) where
  step : σ → α → Option σ

namespace Machine

variable {σ : Type u} {α : Type v} (M : Machine σ α)

/-- The state after a list of actions, if every one of them is enabled. -/
def run (s : σ) : List α → Option σ
  | [] => some s
  | a :: as => (M.step s a).bind (run · as)

/-- Every action of the run meets `ok` in the state it is taken in. -/
def Along (ok : σ → α → Prop) (s : σ) : List α → Prop
  | [] => True
  | a :: as => ok s a ∧ ∀ t, M.step s a = some t → Along ok t as

@[simp] theorem run_nil (s : σ) : M.run s [] = some s := rfl

theorem run_cons (s : σ) (a : α) (as : List α) :
    M.run s (a :: as) = (M.step s a).bind (M.run · as) := rfl

variable {M}

theorem run_cons_some {s u : σ} {a : α} {as : List α} (h : M.run s (a :: as) = some u) :
    ∃ t, M.step s a = some t ∧ M.run t as = some u := Option.bind_eq_some_iff.1 h

theorem run_append {s t : σ} {as bs : List α} (h : M.run s as = some t) :
    M.run s (as ++ bs) = M.run t bs := by
  induction as generalizing s with
  | nil => simp only [run_nil, Option.some.injEq] at h; rw [h]; rfl
  | cons a as ih =>
    obtain ⟨r, hr, h⟩ := run_cons_some h
    rw [List.cons_append, run_cons, hr]
    exact ih h

/-- **Invariant rule**: what every step keeps, every run keeps. -/
theorem run_inv {I : σ → Prop} (hI : ∀ s a t, I s → M.step s a = some t → I t) {s u : σ}
    {as : List α} (hs : I s) (h : M.run s as = some u) : I u := by
  induction as generalizing s with
  | nil => simp only [run_nil, Option.some.injEq] at h; exact h ▸ hs
  | cons a as ih =>
    obtain ⟨t, ht, h⟩ := run_cons_some h
    exact ih (hI s a t hs ht) h

/-- **Invariant rule under a condition on the steps**. -/
theorem along_inv {I : σ → Prop} {ok : σ → α → Prop}
    (hI : ∀ s a t, I s → ok s a → M.step s a = some t → I t) {s u : σ} {as : List α} (hs : I s)
    (hok : M.Along ok s as) (h : M.run s as = some u) : I u := by
  induction as generalizing s with
  | nil => simp only [run_nil, Option.some.injEq] at h; exact h ▸ hs
  | cons a as ih =>
    obtain ⟨t, ht, h⟩ := run_cons_some h
    exact ih (hI s a t hs hok.1 ht) (hok.2 t ht) h

/-- **Exact rule**: where every step keeps `I` if and only if it meets the condition, so does every
run. -/
theorem along_iff {I : σ → Prop} {ok : σ → α → Prop}
    (hI : ∀ s a t, M.step s a = some t → (I t ↔ I s ∧ ok s a)) {s u : σ} {as : List α}
    (h : M.run s as = some u) : I u ↔ I s ∧ M.Along ok s as := by
  induction as generalizing s with
  | nil =>
    cases h
    exact (and_iff_left trivial).symm
  | cons a as ih =>
    obtain ⟨t, ht, h⟩ := run_cons_some h
    rw [ih h, hI s a t ht, and_assoc]
    refine and_congr_right fun _ => and_congr_right fun _ => ⟨fun hrest t' ht' => ?_, fun hrest => ?_⟩
    · cases ht.symm.trans ht'
      exact hrest
    · exact hrest t ht

/-- **Exact rule with an invariant**: while the steps meet the condition `I` holds, the first that does
not breaks `G` for good, and `I` implies `G`. -/
theorem along_iff_of_inv {I G : σ → Prop} {ok : σ → α → Prop} (hG : ∀ s, I s → G s)
    (hkeep : ∀ s a t, I s → ok s a → M.step s a = some t → I t)
    (hbreak : ∀ s a t, I s → ¬ok s a → M.step s a = some t → ¬G t)
    (hgone : ∀ s a t, ¬G s → M.step s a = some t → ¬G t) {s u : σ} {as : List α} (hs : I s)
    (h : M.run s as = some u) : G u ↔ M.Along ok s as := by
  induction as generalizing s with
  | nil =>
    cases h
    exact iff_of_true (hG _ hs) trivial
  | cons a as ih =>
    obtain ⟨t, ht, h⟩ := run_cons_some h
    by_cases hok : ok s a
    · rw [ih (hkeep s a t hs hok ht) h]
      refine ⟨fun hrest => ⟨hok, fun t' ht' => ?_⟩, fun hrest => hrest.2 t ht⟩
      cases ht.symm.trans ht'
      exact hrest
    · refine iff_of_false (fun hu => ?_) fun hall => hok hall.1
      exact run_inv (I := fun s => ¬G s) hgone (hbreak s a t hs hok ht) h hu

instance decidableAlong {ok : σ → α → Prop} [∀ s a, Decidable (ok s a)] :
    ∀ (as : List α) (s : σ), Decidable (M.Along ok s as)
  | [], _ => .isTrue trivial
  | a :: as, s =>
    have : ∀ s, Decidable (M.Along ok s as) := decidableAlong as
    inferInstanceAs (Decidable (ok s a ∧ ∀ t ∈ M.step s a, M.Along ok t as))

/-- The two parts of a run that meets a condition. -/
theorem Along.append {ok : σ → α → Prop} {s t : σ} {as bs : List α} (hs : M.Along ok s (as ++ bs))
    (h : M.run s as = some t) : M.Along ok s as ∧ M.Along ok t bs := by
  induction as generalizing s with
  | nil => simp only [run_nil, Option.some.injEq] at h; exact ⟨trivial, h ▸ hs⟩
  | cons a as ih =>
    obtain ⟨r, hr, h⟩ := run_cons_some h
    refine ⟨⟨hs.1, fun r' hr' => ?_⟩, (ih (hs.2 r hr) h).2⟩
    cases hr.symm.trans hr'
    exact (ih (hs.2 r hr) h).1

/-- The two parts of a run. -/
theorem run_append_some {s u : σ} {as bs : List α} (h : M.run s (as ++ bs) = some u) :
    ∃ t, M.run s as = some t ∧ M.run t bs = some u := by
  induction as generalizing s with
  | nil => exact ⟨s, rfl, h⟩
  | cons a as ih =>
    obtain ⟨r, hr, h⟩ := run_cons_some h
    obtain ⟨t, ht, hu⟩ := ih h
    exact ⟨t, by rw [run_cons, hr]; exact ht, hu⟩

/-- **Invariant rule with the run so far**. -/
theorem run_history {s₀ u : σ} {I : List α → σ → Prop} (hnil : I [] s₀)
    (hI : ∀ as s a t, M.run s₀ as = some s → I as s → M.step s a = some t → I (as ++ [a]) t)
    {as : List α} (h : M.run s₀ as = some u) : I as u := by
  induction as using List.reverseRecOn generalizing u with
  | nil =>
    cases h
    exact hnil
  | append_singleton as a ih =>
    obtain ⟨s, hs, h⟩ := run_append_some h
    obtain ⟨t, ht, h⟩ := run_cons_some h
    cases h
    exact hI as s a _ hs (ih hs) ht

/-- A condition on the action alone. -/
theorem along_of_forall {ok : σ → α → Prop} {as : List α} (h : ∀ a ∈ as, ∀ s, ok s a) (s : σ) :
    M.Along ok s as := by
  induction as generalizing s with
  | nil => trivial
  | cons a as ih =>
    exact ⟨h a (.head _) s, fun t _ => ih (fun b hb => h b (.tail _ hb)) t⟩

end Machine

/-- A simulation: a concrete step from `R`-related states is matched by abstract steps (any number
of them) to `R`-related states. -/
def Sim {σ : Type u} {α : Type v} {τ : Type w} {β : Type x} (C : Machine σ α) (A : Machine τ β)
    (R : σ → τ → Prop) : Prop :=
  ∀ {s a s' t}, R s t → C.step s a = some s' → ∃ bs t', A.run t bs = some t' ∧ R s' t'

/-- A concrete run is matched by an abstract run. -/
theorem Sim.run {σ : Type u} {α : Type v} {τ : Type w} {β : Type x} {C : Machine σ α}
    {A : Machine τ β} {R : σ → τ → Prop} (S : Sim C A R) {s u : σ} {t : τ} {as : List α}
    (hR : R s t) (h : C.run s as = some u) : ∃ bs t', A.run t bs = some t' ∧ R u t' := by
  induction as generalizing s t with
  | nil =>
    simp only [Machine.run_nil, Option.some.injEq] at h
    exact ⟨[], t, rfl, h ▸ hR⟩
  | cons a as ih =>
    obtain ⟨s', hs', h⟩ := Machine.run_cons_some h
    obtain ⟨bs, t', ht', hR'⟩ := S hR hs'
    obtain ⟨bs', t'', hb, hR''⟩ := ih hR' h
    exact ⟨bs ++ bs', t'', by rw [Machine.run_append ht', hb], hR''⟩

end Lts
