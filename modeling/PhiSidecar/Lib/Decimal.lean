import Mathlib.Data.List.Basic
import Mathlib.Data.UInt
import Mathlib.Tactic.Ring

/-!
# Decimal text of integers

`natText n` and `intText z` are the shortest decimal texts (what a `to_string` prints);
`readNat` and `readInt` read an optional minus sign and a non-empty digit string, the whole text
and nothing else (what a `from_chars` with an end check accepts). Reading a printed number gives it
back (`readInt_intText`).
-/

set_option autoImplicit false

namespace Decimal

/-- An ASCII digit. -/
def isDigit (c : UInt8) : Bool := 0x30 ≤ c && c ≤ 0x39

/-- The digit of `d < 10`. -/
def digit (d : Nat) : UInt8 := UInt8.ofNat (0x30 + d)

/-- The value of an ASCII digit. -/
def digitVal (c : UInt8) : Nat := c.toNat - 0x30

/-- Decimal digits of `n`, most significant first, with `fuel` at least `n`. -/
def natTextAux : Nat → Nat → List UInt8
  | 0, n => [digit (n % 10)]
  | fuel + 1, n => if n < 10 then [digit n] else natTextAux fuel (n / 10) ++ [digit (n % 10)]

/-- The decimal text of a natural number. -/
def natText (n : Nat) : List UInt8 := natTextAux n n

/-- The decimal text of an integer. -/
def intText : Int → List UInt8
  | .ofNat n => natText n
  | .negSucc n => 0x2D :: natText (n + 1)

/-- The number a digit string denotes. -/
def natValue (ds : List UInt8) : Nat := ds.foldl (fun v c => 10 * v + digitVal c) 0

/-- Read a non-empty digit string. -/
def readNat (t : List UInt8) : Option Nat :=
  if t ≠ [] ∧ t.all isDigit then some (natValue t) else none

/-- Read an optional minus sign and a non-empty digit string. -/
def readInt (t : List UInt8) : Option Int :=
  if t.head? = some 0x2D then (readNat t.tail).map fun n : Nat => -(n : Int)
  else (readNat t).map Int.ofNat

theorem digit_toNat {d : Nat} (h : d < 10) : (digit d).toNat = 0x30 + d := by
  simp only [digit, UInt8.toNat_ofNat']
  omega

theorem isDigit_iff {c : UInt8} : isDigit c = true ↔ 0x30 ≤ c.toNat ∧ c.toNat ≤ 0x39 := by
  simp [isDigit, UInt8.le_iff_toNat_le]

@[simp] theorem isDigit_digit {d : Nat} (h : d < 10) : isDigit (digit d) = true := by
  rw [isDigit_iff, digit_toNat h]
  omega

@[simp] theorem digitVal_digit {d : Nat} (h : d < 10) : digitVal (digit d) = d := by
  rw [digitVal, digit_toNat h]
  omega

theorem natTextAux_eq : ∀ {fuel fuel' n : Nat}, n ≤ fuel → n ≤ fuel' →
    natTextAux fuel n = natTextAux fuel' n
  | 0, 0, _, _, _ => rfl
  | 0, fuel' + 1, n, h, _ => by
    obtain rfl : n = 0 := by omega
    simp [natTextAux]
  | fuel + 1, 0, n, _, h => by
    obtain rfl : n = 0 := by omega
    simp [natTextAux]
  | fuel + 1, fuel' + 1, n, h, h' => by
    simp only [natTextAux]
    split
    · rfl
    · rw [@natTextAux_eq fuel fuel' _ (by omega) (by omega)]

theorem natText_lt {n : Nat} (h : n < 10) : natText n = [digit n] := by
  unfold natText
  cases n with
  | zero => rfl
  | succ n => rw [natTextAux, if_pos h]

theorem natText_ge {n : Nat} (h : 10 ≤ n) : natText n = natText (n / 10) ++ [digit (n % 10)] := by
  unfold natText
  obtain ⟨m, rfl⟩ : ∃ m, n = m + 1 := ⟨n - 1, by omega⟩
  rw [natTextAux, if_neg (by omega), @natTextAux_eq m ((m + 1) / 10) _ (by omega) (by omega)]

/-- The rule to reason about `natText`: one digit, or the text of `n / 10` and one more digit. -/
theorem natText_induct {motive : Nat → Prop} (lt : ∀ n, n < 10 → motive n)
    (ge : ∀ n, 10 ≤ n → motive (n / 10) → motive n) (n : Nat) : motive n := by
  induction n using Nat.strongRecOn with
  | ind n ih =>
    by_cases h : n < 10
    · exact lt n h
    · exact ge n (by omega) (ih _ (by omega))

theorem natText_ne_nil (n : Nat) : natText n ≠ [] := by
  by_cases h : n < 10
  · simp [natText_lt h]
  · simp [natText_ge (show 10 ≤ n by omega)]

theorem natText_digits (n : Nat) : ∀ c ∈ natText n, isDigit c = true := by
  induction n using natText_induct with
  | lt n h => simp [natText_lt h, h]
  | ge n h ih =>
    rw [natText_ge h]
    intro c hc
    rcases List.mem_append.1 hc with hc | hc
    · exact ih c hc
    · rw [List.mem_singleton.1 hc]
      exact isDigit_digit (by omega)

theorem natValue_concat (ds : List UInt8) (c : UInt8) :
    natValue (ds ++ [c]) = 10 * natValue ds + digitVal c := by
  simp [natValue, List.foldl_append]

@[simp] theorem natValue_natText (n : Nat) : natValue (natText n) = n := by
  induction n using natText_induct with
  | lt n h => simp [natText_lt h, natValue, h]
  | ge n h ih =>
    rw [natText_ge h, natValue_concat, ih, digitVal_digit (by omega)]
    omega

@[simp] theorem readNat_natText (n : Nat) : readNat (natText n) = some n := by
  rw [readNat, if_pos ⟨natText_ne_nil n, List.all_eq_true.2 (natText_digits n)⟩,
    natValue_natText]

theorem readInt_of_digits {t : List UInt8} (h : ∀ c ∈ t, isDigit c = true) :
    readInt t = (readNat t).map Int.ofNat := by
  refine if_neg fun hh => ?_
  exact absurd (h 0x2D (List.mem_of_head? hh)) (by decide)

@[simp] theorem readInt_natText (n : Nat) : readInt (natText n) = some (n : Int) := by
  rw [readInt_of_digits (natText_digits n), readNat_natText]
  rfl

/-- **Reading a printed integer gives it back.** -/
@[simp] theorem readInt_intText (z : Int) : readInt (intText z) = some z := by
  cases z with
  | ofNat n => exact readInt_natText n
  | negSucc n =>
    simp only [readInt, intText, List.head?_cons, if_true, List.tail_cons, readNat_natText]
    rfl

/-- The leading digit of a positive number is not `0`. -/
theorem natText_head {n : Nat} (h : 0 < n) :
    ∃ d ds, natText n = d :: ds ∧ isDigit d = true ∧ d ≠ 0x30 ∧ ∀ c ∈ ds, isDigit c = true := by
  induction n using natText_induct with
  | lt n hn =>
    refine ⟨digit n, [], natText_lt hn, isDigit_digit hn, fun he => ?_, by simp⟩
    have := congrArg UInt8.toNat he
    rw [digit_toNat hn] at this
    simp only [UInt8.reduceToNat] at this
    omega
  | ge n hn ih =>
    obtain ⟨d, ds, he, hd, h0, hds⟩ := ih (by omega)
    refine ⟨d, ds ++ [digit (n % 10)], by rw [natText_ge hn, he]; rfl, hd, h0, fun c hc => ?_⟩
    rcases List.mem_append.1 hc with hc | hc
    · exact hds c hc
    · rw [List.mem_singleton.1 hc]
      exact isDigit_digit (by omega)

theorem natText_length {n k : Nat} (hk : 0 < k) (h : n < 10 ^ k) : (natText n).length ≤ k := by
  induction n using natText_induct generalizing k with
  | lt n hn =>
    rw [natText_lt hn]
    exact hk
  | ge n hn ih =>
    obtain ⟨k, rfl⟩ : ∃ m, k = m + 1 := ⟨k - 1, by omega⟩
    rw [Nat.pow_succ] at h
    have hk' : 0 < k := by
      by_contra hzero
      obtain rfl : k = 0 := by omega
      omega
    have := ih hk' (by omega)
    rw [natText_ge hn, List.length_append, List.length_singleton]
    omega

theorem intText_length {z : Int} {k : Nat} (hk : 0 < k) (h : z.natAbs < 10 ^ k) :
    (intText z).length ≤ k + 1 := by
  cases z with
  | ofNat n => exact Nat.le_succ_of_le (natText_length hk h)
  | negSucc n => exact Nat.succ_le_succ (natText_length hk h)

end Decimal
