import Mathlib.Data.List.Basic
import Mathlib.Data.List.TakeWhile

/-!
# Cursors into a list

`At l i s`: position `i` of `l` is inside it (the end included) and `s` is what is left there. A
scanner that reads `l[i]?` and advances `i` is reasoned about through `s`: reading is the head of
`s` (`At.get`), advancing drops it (`At.next`, `At.skip`). `Span l i j a`: between the positions `i` and
`j` the list is `a`; what scanners pass over one after another is put together by `Span.append`.
-/

set_option autoImplicit false

namespace Cursor

variable {α : Type*} {l s a : List α} {i : Nat} {c : α}

/-- At position `i` of `l` the list `s` is left. -/
def At (l : List α) (i : Nat) (s : List α) : Prop := i ≤ l.length ∧ l.drop i = s

theorem At.start (l : List α) : At l 0 l := ⟨Nat.zero_le _, rfl⟩

theorem At.length (h : At l i s) : i + s.length = l.length := by
  obtain ⟨hi, rfl⟩ := h
  rw [List.length_drop]
  omega

theorem At.get (h : At l i s) : l[i]? = s.head? := by
  rw [← h.2, List.head?_drop]

theorem At.get_cons (h : At l i (c :: s)) : l[i]? = some c := h.get

theorem At.skip (h : At l i (a ++ s)) : At l (i + a.length) s := by
  have hl := h.length
  rw [List.length_append] at hl
  refine ⟨by omega, ?_⟩
  rw [← List.drop_drop, h.2, List.drop_left]

theorem At.next (h : At l i (c :: s)) : At l (i + 1) s := h.skip (a := [c])

theorem At.lt (h : At l i (c :: s)) : i < l.length := by
  have := h.length
  simp only [List.length_cons] at this
  omega

/-- The slice between two cursors. -/
theorem At.slice (h : At l i (a ++ s)) : (l.drop i).take a.length = a := by
  rw [h.2, List.take_left]

/-- A maximal run of elements satisfying `p`, followed by none. -/
theorem takeWhile_run {p : α → Bool} (ha : ∀ x ∈ a, p x = true)
    (hs : ∀ x, s.head? = some x → p x = false) : (a ++ s).takeWhile p = a := by
  rw [List.takeWhile_append_of_pos ha]
  cases s with
  | nil => simp
  | cons x s => simp [hs x rfl]

/-! ## Spans -/

/-- From position `i` of `l` to position `j` there is `a`. -/
def Span (l : List α) (i j : Nat) (a : List α) : Prop := ∃ s, At l i (a ++ s) ∧ At l j s

theorem At.span (h : At l i (a ++ s)) : Span l i (i + a.length) a := ⟨s, h, h.skip⟩

section
variable {b : List α} {j k : Nat}

theorem Span.refl (hi : i ≤ l.length) : Span l i i [] := ⟨l.drop i, ⟨hi, rfl⟩, hi, rfl⟩

theorem Span.get (h : l[i]? = some c) : Span l i (i + 1) [c] := by
  obtain ⟨hi, rfl⟩ := List.getElem?_eq_some_iff.1 h
  have hat : At l i (l[i] :: l.drop (i + 1)) := ⟨Nat.le_of_lt hi, List.drop_eq_getElem_cons hi⟩
  exact ⟨_, hat, hat.next⟩

theorem Span.append (h : Span l i j a) (h' : Span l j k b) : Span l i k (a ++ b) := by
  obtain ⟨s, hi, hj⟩ := h
  obtain ⟨s', hj', hk⟩ := h'
  have hs : s = b ++ s' := hj.2.symm.trans hj'.2
  exact ⟨s', by rw [List.append_assoc, ← hs]; exact hi, hk⟩

theorem Span.cons (h : l[i]? = some c) (h' : Span l (i + 1) j a) : Span l i j (c :: a) :=
  (Span.get h).append h'

theorem Span.right_le (h : Span l i j a) : j ≤ l.length := h.choose_spec.2.1

theorem Span.length (h : Span l i j a) : j = i + a.length := by
  obtain ⟨s, hi, hj⟩ := h
  have h1 := hi.length
  have h2 := hj.length
  rw [List.length_append] at h1
  omega

theorem Span.slice (h : Span l i j a) : (l.drop i).take (j - i) = a := by
  rw [h.length, Nat.add_sub_cancel_left]
  exact h.choose_spec.1.slice

/-- What is left of a list that begins with a token. -/
theorem Span.of_take (hi : i ≤ l.length) (h : (l.drop i).take a.length = a) :
    Span l i (i + a.length) a :=
  At.span (s := (l.drop i).drop a.length) ⟨hi, by conv_lhs => rw [← List.take_append_drop a.length (l.drop i), h]⟩

/-- A run of elements is passed over. -/
theorem Span.takeWhile (p : α → Bool) (hi : i ≤ l.length) :
    Span l i (i + ((l.drop i).takeWhile p).length) ((l.drop i).takeWhile p) :=
  At.span (s := (l.drop i).dropWhile p) ⟨hi, List.takeWhile_append_dropWhile.symm⟩

end

end Cursor
