import Mathlib.Data.Finset.Basic
import Mathlib.Data.Finset.Dedup
import Mathlib.Data.List.Count
import Mathlib.Data.List.Infix

/-!
# Ledgers of handles

A component acquires handles from its environment, uses them and releases them; `none` is the null
handle. `held ops` is what is held after the operations `ops`. The environment is `Fresh` when it hands
out no handle that is held, the component is `Legal` when it releases only what it holds and uses only
that or the null handle.

`Keeps pin base own ops` is the assertion that the rules below carry through a program: it has been legal
so far and holds exactly `pin` and `own`, and `pin` it has held at every instant since `base`, unless the
environment was not fresh. The operations are rules for it (`Keeps.acquire`, `Keeps.use`,
`Keeps.release`), and only what is in `own` can be released.

* `count_balance`: a handle has been acquired as often as released, and once more while it is held.
-/

set_option autoImplicit false

namespace Ledger

universe u

inductive Op (α : Type u)
  | acquire (a : α)
  | use (a : Option α)
  | release (a : Option α)
  deriving DecidableEq

variable {α : Type u} [DecidableEq α]

def after (held : Finset α) : Op α → Finset α
  | .acquire a => insert a held
  | .use _ => held
  | .release a => a.elim held held.erase

/-- What is held after some operations. -/
def held (ops : List (Op α)) : Finset α := ops.foldl after ∅

/-- The environment does not hand out a handle that is held. -/
def Fresh (held : Finset α) : Op α → Prop
  | .acquire a => a ∉ held
  | _ => True

/-- What is released is held, what is used is held or null. -/
def Legal (held : Finset α) : Op α → Prop
  | .acquire _ => True
  | .use a => ∀ b ∈ a, b ∈ held
  | .release a => ∃ b ∈ held, a = some b

/-- Every operation meets `ok` where it stands. -/
def Throughout (ok : Finset α → Op α → Prop) (ops : List (Op α)) : Prop :=
  ∀ front op, front ++ [op] <+: ops → ok (held front) op

variable {ok : Finset α → Op α → Prop} {ops base : List (Op α)} {op : Op α} {a : α}

@[simp] theorem held_nil : held ([] : List (Op α)) = ∅ := rfl

@[simp] theorem held_snoc (ops : List (Op α)) (op : Op α) : held (ops ++ [op]) = after (held ops) op := by
  rw [held, List.foldl_append]
  rfl

theorem Throughout.nil : Throughout ok [] := fun front op h => by
  have := h.length_le
  simp at this

theorem throughout_snoc : Throughout ok (ops ++ [op]) ↔ Throughout ok ops ∧ ok (held ops) op := by
  refine ⟨fun h => ⟨fun front op' h' => h _ _ (h'.trans (List.prefix_append _ _)), h _ _ List.prefix_rfl⟩,
    fun ⟨hops, hop⟩ front op' h' => ?_⟩
  obtain heq | hfront := List.prefix_concat_iff.1 h'
  · obtain ⟨rfl, hlast⟩ := List.append_inj' heq rfl
    obtain rfl := List.singleton_inj.1 hlast
    exact hop
  · exact hops front op' hfront

theorem Throughout.of_prefix {ops' : List (Op α)} (h : Throughout ok ops) (hpre : ops' <+: ops) :
    Throughout ok ops' := fun front op hfront => h front op (hfront.trans hpre)

/-- The operations one by one. -/
theorem throughout_iff :
    Throughout ok ops ↔ ∀ i : Fin ops.length, ok (held (ops.take i)) (ops.get i) := by
  refine ⟨fun h i => h _ _ ?_, fun h front op hfront => ?_⟩
  · rw [List.get_eq_getElem, List.take_append_getElem]
    exact List.take_prefix _ _
  · obtain ⟨back, rfl⟩ := hfront
    have := h ⟨front.length, by simp⟩
    simpa using this

instance decidableThroughout [∀ held op, Decidable (ok held op)] : Decidable (Throughout ok ops) :=
  decidable_of_iff _ throughout_iff.symm

instance (held : Finset α) (op : Op α) : Decidable (Fresh held op) :=
  match op with
  | .acquire a => inferInstanceAs (Decidable (a ∉ held))
  | .use _ | .release _ => .isTrue trivial

/-- What is held has been acquired. -/
theorem mem_of_held (h : a ∈ held ops) : .acquire a ∈ ops := by
  induction ops using List.reverseRecOn with
  | nil => simp at h
  | append_singleton ops op ih =>
    rw [held_snoc] at h
    rw [List.mem_append]
    cases op with
    | acquire b =>
      obtain rfl | h := Finset.mem_insert.1 h
      · exact .inr (.head _)
      · exact .inl (ih h)
    | use b => exact .inl (ih h)
    | release b =>
      cases b with
      | none => exact .inl (ih h)
      | some b => exact .inl (ih (Finset.mem_of_mem_erase h))

/-! ## The balance -/

/-- **A handle has been acquired as often as released, and once more while it is held.** -/
theorem count_balance (hfresh : Throughout Fresh ops) (hlegal : Throughout Legal ops) (a : α) :
    ops.count (.acquire a) = ops.count (.release (some a)) + if a ∈ held ops then 1 else 0 := by
  induction ops using List.reverseRecOn with
  | nil => simp
  | append_singleton ops op ih =>
    obtain ⟨hfresh, hop⟩ := throughout_snoc.1 hfresh
    obtain ⟨hlegal, hop'⟩ := throughout_snoc.1 hlegal
    have ih := ih hfresh hlegal
    rw [List.count_append, List.count_append, held_snoc]
    cases op with
    | acquire b =>
      have hb : b ∉ held ops := hop
      by_cases heq : b = a
      · subst heq
        rw [if_neg hb] at ih
        simp [after, ih]
      · simp [after, heq, Ne.symm heq, ih]
    | use b =>
      change _ = _ + if a ∈ held ops then 1 else 0
      simp [ih]
    | release b =>
      obtain ⟨b, hb, rfl⟩ := hop'
      by_cases heq : b = a
      · subst heq
        rw [if_pos hb] at ih
        simp [after, ih]
      · simp [after, heq, Ne.symm heq, ih]

/-! ## The rules -/

/-- The operations have been legal and leave `pin` and `own`, and `pin` has been held since `base`. -/
structure Kept (pin : List α) (base : List (Op α)) (own : List α) (ops : List (Op α)) : Prop where
  legal : Throughout Legal ops
  nodup : (pin ++ own).Nodup
  held_eq : held ops = (pin ++ own).toFinset
  grown : base <+: ops
  since : ∀ front, base <+: front → front <+: ops → ∀ a ∈ pin, a ∈ held front

/-- They do so unless the environment was not fresh. -/
def Keeps (pin : List α) (base : List (Op α)) (own : List α) (ops : List (Op α)) : Prop :=
  Throughout Fresh ops → Kept pin base own ops

variable {pin own own' : List α}

theorem Keeps.nil : Keeps ([] : List α) [] [] [] := fun _ =>
  ⟨Throughout.nil, List.nodup_nil, rfl, List.prefix_rfl, fun _ _ _ _ ha => nomatch ha⟩

theorem Keeps.perm (h : Keeps pin base own ops) (hperm : own.Perm own') : Keeps pin base own' ops :=
  fun hfresh =>
    have k := h hfresh
    ⟨k.legal, ((hperm.append_left pin).nodup_iff).1 k.nodup,
      k.held_eq.trans (List.toFinset_eq_of_perm _ _ (hperm.append_left pin)), k.grown, k.since⟩

/-- What is pinned was held before the next operation, and is held after it. -/
theorem Kept.snoc_since (k : Kept pin base own ops) (h : ∀ a ∈ pin, a ∈ held (ops ++ [op])) (front : List (Op α))
    (hbase : base <+: front) (hfront : front <+: ops ++ [op]) : ∀ a ∈ pin, a ∈ held front := by
  obtain rfl | hfront := List.prefix_concat_iff.1 hfront
  · exact h
  · exact k.since front hbase hfront

theorem Keeps.acquire (h : Keeps pin base own ops) (a : α) :
    Keeps pin base (a :: own) (ops ++ [.acquire a]) := by
  intro hfresh
  obtain ⟨hfresh, ha⟩ := throughout_snoc.1 hfresh
  have k := h hfresh
  have ha : a ∉ pin ++ own := fun hmem => ha (k.held_eq ▸ List.mem_toFinset.2 hmem)
  have hheld : held (ops ++ [.acquire a]) = (pin ++ a :: own).toFinset := by
    rw [held_snoc, after, k.held_eq, List.toFinset_eq_of_perm _ _ List.perm_middle, List.toFinset_cons]
  refine ⟨throughout_snoc.2 ⟨k.legal, trivial⟩, ?_, hheld, k.grown.trans (List.prefix_append _ _), ?_⟩
  · exact List.perm_middle.nodup_iff.2 (List.nodup_cons.2 ⟨ha, k.nodup⟩)
  · refine k.snoc_since fun b hb => ?_
    rw [hheld]
    exact List.mem_toFinset.2 (List.mem_append_left _ hb)

theorem Keeps.use (h : Keeps pin base own ops) {a : Option α} (ha : ∀ b ∈ a, b ∈ pin ++ own) :
    Keeps pin base own (ops ++ [.use a]) := by
  intro hfresh
  have k := h (throughout_snoc.1 hfresh).1
  have hheld : held (ops ++ [.use a]) = held ops := held_snoc ..
  refine ⟨throughout_snoc.2 ⟨k.legal, fun b hb => ?_⟩, k.nodup, hheld.trans k.held_eq,
    k.grown.trans (List.prefix_append _ _), k.snoc_since ?_⟩
  · rw [k.held_eq]
    exact List.mem_toFinset.2 (ha b hb)
  · rw [hheld]
    exact k.since ops k.grown List.prefix_rfl

theorem Keeps.release {a : α} (h : Keeps pin base (a :: own) ops) :
    Keeps pin base own (ops ++ [.release (some a)]) := by
  intro hfresh
  have k := h (throughout_snoc.1 hfresh).1
  obtain ⟨ha, hnodup⟩ := List.nodup_cons.1 (List.perm_middle.nodup_iff.1 k.nodup)
  have hmem : a ∈ held ops := by
    rw [k.held_eq]
    exact List.mem_toFinset.2 (List.mem_append_right _ (.head _))
  have hheld : held (ops ++ [.release (some a)]) = (pin ++ own).toFinset := by
    rw [held_snoc, after, Option.elim_some, k.held_eq, List.toFinset_eq_of_perm _ _ List.perm_middle,
      List.toFinset_cons, Finset.erase_insert (by rwa [List.mem_toFinset])]
  refine ⟨throughout_snoc.2 ⟨k.legal, a, hmem, rfl⟩, hnodup, hheld, k.grown.trans (List.prefix_append _ _),
    k.snoc_since fun b hb => ?_⟩
  rw [hheld]
  exact List.mem_toFinset.2 (List.mem_append_left _ hb)

/-- A handle is pinned, from now on. -/
theorem Keeps.pinned (h : Keeps [] base (pin ++ own) ops) : Keeps pin ops own ops := by
  intro hfresh
  have k := h hfresh
  refine ⟨k.legal, k.nodup, k.held_eq, List.prefix_rfl, fun front hbase hfront a ha => ?_⟩
  obtain rfl := hbase.eq_of_length_le hfront.length_le
  rw [k.held_eq, List.nil_append]
  exact List.mem_toFinset.2 (List.mem_append_left _ ha)

/-- What is pinned is given up, to be released. -/
theorem Keeps.unpinned (h : Keeps pin base own ops) : Keeps [] base (pin ++ own) ops := by
  intro hfresh
  have k := h hfresh
  exact ⟨k.legal, k.nodup, k.held_eq, k.grown, fun _ _ _ _ ha => nomatch ha⟩

end Ledger
