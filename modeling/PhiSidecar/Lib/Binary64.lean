import Mathlib.Data.List.DropRight
import Mathlib.Data.Nat.Log
import PhiSidecar.Lib.Json

/-!
# Decimal text of IEEE 754 doubles

`generalText p b` is the `%g` form of the finite double with bit pattern `b` at precision `p`: `p`
significant digits, correctly rounded with ties to even, without trailing zeros, and in exponent
form when the exponent is below `-4` or not below `p`. All arithmetic is exact, on the fraction
`magnitude b`. `generalText_number`: the text is a JSON number.
-/

set_option autoImplicit false

namespace Binary64

open Decimal Rfc8259

/-! ## Bit patterns -/

def exponentBits (b : UInt64) : Nat := b.toNat / 2 ^ 52 % 2 ^ 11

def isFinite (b : UInt64) : Bool := exponentBits b != 2 ^ 11 - 1

def isNegative (b : UInt64) : Bool := b.toNat / 2 ^ 63 == 1

/-- Numerator and denominator of the absolute value of a finite double. -/
def magnitude (b : UInt64) : Nat × Nat :=
  let fraction := b.toNat % 2 ^ 52
  let e := exponentBits b
  let m := if e = 0 then fraction else 2 ^ 52 + fraction
  if 1075 ≤ e then (m * 2 ^ (e - 1075), 1) else (m, 2 ^ (1075 - max e 1))

/-! ## Digits -/

/-- The integer nearest to `num / den`, the even one of two. -/
def roundHalfEven (num den : Nat) : Nat :=
  let q := num / den
  let r := num % den
  if 2 * r < den ∨ 2 * r = den ∧ q % 2 = 0 then q else q + 1

/-- `num / den * 10 ^ k`, rounded. -/
def scaled (num den : Nat) (k : Int) : Nat :=
  if 0 ≤ k then roundHalfEven (num * 10 ^ k.toNat) den
  else roundHalfEven num (den * 10 ^ (-k).toNat)

/-- The `x` with `10 ^ x ≤ num / den < 10 ^ (x + 1)`; `0` for zero. -/
def decimalExponent (num den : Nat) : Int :=
  if num = 0 then 0
  else if den ≤ num then Nat.log 10 (num / den)
  else -(Nat.clog 10 ((den + num - 1) / num) : Int)

/-- The `p` leading digits of `num / den`, as an integer, and the exponent of the first one. -/
def leading (p num den : Nat) : Nat × Int :=
  let x := decimalExponent num den
  let d := scaled num den (p - 1 - x)
  if d = 10 ^ p then (10 ^ (p - 1), x + 1) else (d, x)

/-! ## Text -/

/-- The last `k` digits of `n`, with leading zeros. -/
def padded : Nat → Nat → List UInt8
  | 0, _ => []
  | k + 1, n => padded k (n / 10) ++ [digit (n % 10)]

/-- The `k` digits of `n` behind a point, without trailing zeros. -/
def fracText (k n : Nat) : List UInt8 :=
  let ds := (padded k n).rdropWhile (· == 0x30)
  if ds = [] then [] else 0x2E :: ds

/-- `d / 10 ^ k`. -/
def fixedText (d k : Nat) : List UInt8 := natText (d / 10 ^ k) ++ fracText k (d % 10 ^ k)

/-- The exponent part: a sign and at least two digits. -/
def expText (x : Int) : List UInt8 :=
  0x65 :: ([if 0 ≤ x then 0x2B else 0x2D] ++
    ((if x.natAbs < 10 then [0x30] else []) ++ natText x.natAbs))

def signText (negative : Bool) : List UInt8 := if negative then [0x2D] else []

def generalText (p : Nat) (b : UInt64) : List UInt8 :=
  let (num, den) := magnitude b
  let (d, x) := leading p num den
  signText (isNegative b) ++
    if -4 ≤ x ∧ x < p then fixedText d (p - 1 - x).toNat else fixedText d (p - 1) ++ expText x

/-! ## The text is a JSON number -/

theorem padded_digits : ∀ (k n : Nat), Digits (padded k n)
  | 0, _ => fun _ h => absurd h List.not_mem_nil
  | k + 1, n => fun c hc => by
    rcases List.mem_append.1 hc with hc | hc
    · exact padded_digits k (n / 10) c hc
    · rw [List.mem_singleton.1 hc]
      exact isDigit_digit (by omega)

theorem fracText_frac (k n : Nat) : Frac (fracText k n) := by
  unfold fracText
  simp only
  split_ifs with h
  · exact .none
  · exact .some h fun c hc => padded_digits k n c ((List.rdropWhile_prefix _ _).subset hc)

theorem expText_exp (x : Int) : Exp (expText x) := by
  refine .some (.inl rfl) ?_ ?_ fun c hc => ?_
  · split_ifs <;> simp
  · exact fun h => natText_ne_nil _ (List.append_eq_nil_iff.1 h).2
  · rcases List.mem_append.1 hc with hc | hc
    · split_ifs at hc with h
      · rw [List.mem_singleton.1 hc]; decide
      · cases hc
    · exact natText_digits _ c hc

theorem signText_cases (negative : Bool) : signText negative = [] ∨ signText negative = [0x2D] := by
  cases negative <;> simp [signText]

theorem number_of_fixed (negative : Bool) (d k : Nat) {e : List UInt8} (he : Exp e) :
    Number (signText negative ++ (fixedText d k ++ e)) :=
  ⟨_, _, _, _, signText_cases negative, natText_intPart (d / 10 ^ k), fracText_frac k (d % 10 ^ k),
    he, by rw [fixedText, List.append_assoc]⟩

/-- **The text of a double is a JSON number.** -/
theorem generalText_number (p : Nat) (b : UInt64) : Number (generalText p b) := by
  unfold generalText
  simp only
  split_ifs with h
  · have := number_of_fixed (isNegative b) (leading p (magnitude b).1 (magnitude b).2).1
      (p - 1 - (leading p (magnitude b).1 (magnitude b).2).2).toNat .none
    rwa [List.append_nil] at this
  · exact number_of_fixed _ _ _ (expText_exp _)

end Binary64
