import Mathlib.Algebra.Order.Field.Basic
import Mathlib.Tactic.Linarith

/-!
# The hue wheel

The colours of full chroma (largest component `1`, smallest `0`) lie on a wheel of six sectors.
`At t r g b` places `(r, g, b)` at `t` in `[0, 6)`; the sectors are closed, so that their common
ends belong to both.

* `At.pure`: **a colour on the wheel has full chroma**.
* `At.unique`, `At.injective`: **position and colour determine each other**.
-/

set_option autoImplicit false

namespace HueWheel

variable {K : Type*} [Field K] [LinearOrder K]

inductive At (t r g b : K) : Prop
  | redYellow (lo : 0 ≤ t) (hi : t ≤ 1) (hr : r = 1) (hg : g = t) (hb : b = 0)
  | yellowGreen (lo : 1 ≤ t) (hi : t ≤ 2) (hr : r = 2 - t) (hg : g = 1) (hb : b = 0)
  | greenCyan (lo : 2 ≤ t) (hi : t ≤ 3) (hr : r = 0) (hg : g = 1) (hb : b = t - 2)
  | cyanBlue (lo : 3 ≤ t) (hi : t ≤ 4) (hr : r = 0) (hg : g = 4 - t) (hb : b = 1)
  | blueMagenta (lo : 4 ≤ t) (hi : t ≤ 5) (hr : r = t - 4) (hg : g = 0) (hb : b = 1)
  | magentaRed (lo : 5 ≤ t) (hi : t < 6) (hr : r = 1) (hg : g = 0) (hb : b = 6 - t)

variable [IsStrictOrderedRing K] {t t' r g b r' g' b' : K}

namespace At

theorem range (h : At t r g b) : 0 ≤ t ∧ t < 6 := by
  rcases h with ⟨lo, hi, _, _, _⟩ | ⟨lo, hi, _, _, _⟩ | ⟨lo, hi, _, _, _⟩ | ⟨lo, hi, _, _, _⟩ |
    ⟨lo, hi, _, _, _⟩ | ⟨lo, hi, _, _, _⟩ <;>
  constructor <;> linarith

/-- Every component is in `[0, 1]`. -/
theorem mem (h : At t r g b) : (0 ≤ r ∧ r ≤ 1) ∧ (0 ≤ g ∧ g ≤ 1) ∧ 0 ≤ b ∧ b ≤ 1 := by
  rcases h with ⟨lo, hi, rfl, rfl, rfl⟩ | ⟨lo, hi, rfl, rfl, rfl⟩ | ⟨lo, hi, rfl, rfl, rfl⟩ |
    ⟨lo, hi, rfl, rfl, rfl⟩ | ⟨lo, hi, rfl, rfl, rfl⟩ | ⟨lo, hi, rfl, rfl, rfl⟩ <;>
    refine ⟨⟨?_, ?_⟩, ⟨?_, ?_⟩, ?_, ?_⟩ <;> linarith

omit [IsStrictOrderedRing K] in
theorem pure (h : At t r g b) : (r = 1 ∨ g = 1 ∨ b = 1) ∧ (r = 0 ∨ g = 0 ∨ b = 0) := by
  rcases h with ⟨-, -, hr, -, hb⟩ | ⟨-, -, -, hg, hb⟩ | ⟨-, -, hr, hg, -⟩ | ⟨-, -, hr, -, hb⟩ |
    ⟨-, -, -, hg, hb⟩ | ⟨-, -, hr, hg, -⟩
  · exact ⟨.inl hr, .inr (.inr hb)⟩
  · exact ⟨.inr (.inl hg), .inr (.inr hb)⟩
  · exact ⟨.inr (.inl hg), .inl hr⟩
  · exact ⟨.inr (.inr hb), .inl hr⟩
  · exact ⟨.inr (.inr hb), .inr (.inl hg)⟩
  · exact ⟨.inl hr, .inr (.inl hg)⟩

/-- A position has one colour: at the common end of two sectors both give the same. -/
theorem unique (h : At t r g b) (h' : At t r' g' b') : r = r' ∧ g = g' ∧ b = b' := by
  rcases h with ⟨_, _, rfl, rfl, rfl⟩ | ⟨_, _, rfl, rfl, rfl⟩ | ⟨_, _, rfl, rfl, rfl⟩ |
    ⟨_, _, rfl, rfl, rfl⟩ | ⟨_, _, rfl, rfl, rfl⟩ | ⟨_, _, rfl, rfl, rfl⟩ <;>
  rcases h' with ⟨_, _, rfl, rfl, rfl⟩ | ⟨_, _, rfl, rfl, rfl⟩ | ⟨_, _, rfl, rfl, rfl⟩ |
    ⟨_, _, rfl, rfl, rfl⟩ | ⟨_, _, rfl, rfl, rfl⟩ | ⟨_, _, rfl, rfl, rfl⟩ <;>
  refine ⟨?_, ?_, ?_⟩ <;> linarith

/-- A colour has one position. -/
theorem injective (h : At t r g b) (h' : At t' r g b) : t = t' := by
  rcases h with ⟨_, _, _, _, _⟩ | ⟨_, _, _, _, _⟩ | ⟨_, _, _, _, _⟩ | ⟨_, _, _, _, _⟩ |
    ⟨_, _, _, _, _⟩ | ⟨_, _, _, _, _⟩ <;>
  rcases h' with ⟨_, _, _, _, _⟩ | ⟨_, _, _, _, _⟩ | ⟨_, _, _, _, _⟩ | ⟨_, _, _, _, _⟩ |
    ⟨_, _, _, _, _⟩ | ⟨_, _, _, _, _⟩ <;>
  linarith

end At

end HueWheel
