import Mathlib.Algebra.Order.Field.Power
import Mathlib.Algebra.Order.Floor.Semifield
import Mathlib.Data.Int.Log
import Mathlib.Data.Rat.Floor
import Mathlib.Tactic.FieldSimp
import Mathlib.Tactic.Linarith
import PhiSidecar.Lib.Binary64

/-!
# What the decimal text of a double says

`value b` is the double with bit pattern `b` as a rational number, `RoundsTo p v q` says that `q` is `v` to
`p` significant digits, and `readNumber` is what a JSON number stands for. `nearest` goes back: from a number
to the bit pattern of the double that is nearest to it.

* `generalText_reads`: **the `%g` form at precision `p` stands for the double's value to `p` significant
  digits**, and has a point or an exponent unless that is an integer of at most `p` digits.
-/

set_option autoImplicit false

namespace Binary64

open Decimal Rfc8259

/-! ## Values and rounding -/

/-- The absolute value of a finite double. -/
def absValue (b : UInt64) : ℚ := (magnitude b).1 / (magnitude b).2

def value (b : UInt64) : ℚ := if isNegative b then -absValue b else absValue b

/-- `n` is an integer nearest to `x`, the even one of two. -/
def IsNearest (x : ℚ) (n : ℤ) : Prop := 2 * |x - n| ≤ 1 ∧ (2 * |x - n| = 1 → Even n)

/-- `q` is `v` to `p` significant digits, correctly rounded with ties to even. -/
def RoundsTo (p : Nat) (v q : ℚ) : Prop :=
  v = 0 ∧ q = 0 ∨
  ∃ x n : ℤ, (10 : ℚ) ^ x ≤ |v| ∧ |v| < 10 ^ (x + 1) ∧ IsNearest (v * 10 ^ ((p : ℤ) - 1 - x)) n ∧
    q = n * 10 ^ (x + 1 - p)

/-- The double of that sign nearest to `q`, the even one of two; none beyond the largest. -/
def nearest (negative : Bool) (q : ℚ) : Option UInt64 :=
  -- the weight of the last bit
  let e := max (Int.log 2 q - 52) (-1074)
  let m := q / 2 ^ e
  -- a mantissa that is rounded up to the next power of two is carried into the exponent field
  let bits := if q = 0 then 0 else (e + 1074).toNat * 2 ^ 52 + roundHalfEven m.num.toNat m.den
  if bits < 2047 * 2 ^ 52 then some (UInt64.ofNat ((if negative then 2 ^ 63 else 0) + bits)) else none

example : nearest false (1 / 10) = some 0x3FB999999999999A := by decide +kernel

example : nearest true (494065645841247 / 10 ^ 338) = some 0x8000000000000001 := by decide +kernel

example : nearest false (179769313486232 * 10 ^ 294) = none := by decide +kernel

/-! ## Numbers -/

def isExp (c : UInt8) : Bool := c == 0x65 || c == 0x45

/-- The value of an exponent without its `e`. -/
def exponentValue (t : List UInt8) : ℤ :=
  if t.head? = some 0x2D then -natValue t.tail
  else if t.head? = some 0x2B then natValue t.tail
  else natValue t

/-- What a JSON number stands for: its sign and its absolute value. -/
def readNumber (t : List UInt8) : Bool × ℚ :=
  let negative := t.head? == some 0x2D
  let t := if negative then t.tail else t
  let mantissa := t.takeWhile (!isExp ·)
  let exponent := (t.dropWhile (!isExp ·)).tail
  let whole := mantissa.takeWhile (· != 0x2E)
  let fraction := (mantissa.dropWhile (· != 0x2E)).tail
  (negative, (natValue (whole ++ fraction) : ℚ) * 10 ^ (exponentValue exponent - fraction.length))

/-- The text has a point or an exponent. -/
def Fractional (t : List UInt8) : Prop := ∃ c ∈ t, c = 0x2E ∨ isExp c = true

/-- An integer of at most `p` digits. -/
def Whole (p : Nat) (q : ℚ) : Prop := q.den = 1 ∧ |q| < 10 ^ p

instance (p : Nat) (q : ℚ) : Decidable (Whole p q) := inferInstanceAs (Decidable (_ ∧ _))

/-! ## Rounding -/

theorem magnitude_den_pos (b : UInt64) : 0 < (magnitude b).2 := by
  simp only [magnitude]
  split
  · exact Nat.one_pos
  · exact Nat.two_pow_pos _

theorem roundHalfEven_nearest (num : Nat) {den : Nat} (hden : 0 < den) :
    IsNearest (num / den) (roundHalfEven num den) := by
  have hd : (0 : ℚ) < den := Nat.cast_pos.2 hden
  have hlt := Nat.mod_lt num hden
  have hnum : (num : ℚ) / den = (num / den : Nat) + (num % den : Nat) / (den : ℚ) := by
    rw [eq_comm, add_comm, div_add' _ _ _ hd.ne', div_left_inj' hd.ne']
    exact_mod_cast Nat.mod_add_div' num den
  unfold roundHalfEven IsNearest
  dsimp only
  rw [hnum]
  generalize num / den = q
  generalize num % den = r at hlt
  split_ifs with h
  · have habs : |(q : ℚ) + r / den - (q : ℤ)| = (r : ℚ) / den := by
      rw [Int.cast_natCast, add_sub_cancel_left, abs_of_nonneg (by positivity)]
    rw [habs, mul_div_assoc', div_le_one hd, div_eq_one_iff_eq hd.ne']
    norm_cast
    refine ⟨by omega, fun heq => ?_⟩
    rw [Nat.even_iff]
    omega
  · have hle : (r : ℚ) / den ≤ 1 := (div_le_one hd).2 (Nat.cast_le.2 hlt.le)
    have habs : |(q : ℚ) + r / den - (q + 1 : Nat)| = ((den - r : Nat) : ℚ) / den := by
      rw [Nat.cast_sub hlt.le, sub_div, div_self hd.ne', Nat.cast_add, Nat.cast_one, add_sub_add_left_eq_sub,
        abs_sub_comm, abs_of_nonneg (sub_nonneg.2 hle)]
    rw [Int.cast_natCast, habs, mul_div_assoc', div_le_one hd, div_eq_one_iff_eq hd.ne']
    norm_cast
    refine ⟨by omega, fun heq => ?_⟩
    rw [Nat.even_iff]
    omega

theorem scaled_nearest (num : Nat) {den : Nat} (hden : 0 < den) (k : ℤ) :
    IsNearest (num / den * 10 ^ k) (scaled num den k) := by
  unfold scaled
  split_ifs with h
  · have hk : (num : ℚ) / den * 10 ^ k = (num * 10 ^ k.toNat : Nat) / den := by
      rw [Nat.cast_mul, Nat.cast_pow, ← zpow_natCast, Int.toNat_of_nonneg h, div_mul_eq_mul_div]
      rfl
    rw [hk]
    exact roundHalfEven_nearest _ hden
  · have hk : (num : ℚ) / den * 10 ^ k = num / (den * 10 ^ (-k).toNat : Nat) := by
      rw [Nat.cast_mul, Nat.cast_pow, ← zpow_natCast, Int.toNat_of_nonneg (by omega), zpow_neg, ← div_div,
        div_inv_eq_mul]
      rfl
    rw [hk]
    exact roundHalfEven_nearest _ (by positivity)

theorem decimalExponent_eq {num den : Nat} (hnum : 0 < num) (hden : 0 < den) :
    decimalExponent num den = Int.log 10 ((num : ℚ) / den) := by
  have hd : (0 : ℚ) < den := Nat.cast_pos.2 hden
  have hn : (0 : ℚ) < num := Nat.cast_pos.2 hnum
  unfold decimalExponent
  rw [if_neg hnum.ne']
  split_ifs with h
  · have hone : (1 : ℚ) ≤ num / den := (one_le_div hd).2 (Nat.cast_le.2 h)
    rw [Int.log_of_one_le_right _ hone, Nat.floor_div_eq_div]
  · have hone : (num : ℚ) / den ≤ 1 := (div_le_one hd).2 (Nat.cast_le.2 (Nat.le_of_not_le h))
    rw [Int.log_of_right_le_one _ hone, inv_div]
    have hceil : (den + num - 1) / num = ⌈(den : ℚ) / num⌉₊ := by
      refine eq_of_forall_ge_iff fun k => ?_
      rw [Nat.ceil_le, div_le_iff₀ hn, ← Nat.cast_mul, Nat.cast_le, ← Nat.lt_succ_iff,
        Nat.div_lt_iff_lt_mul hnum, Nat.succ_mul]
      omega
    rw [hceil]

theorem IsNearest.neg {x : ℚ} {n : ℤ} (h : IsNearest x n) : IsNearest (-x) (-n) := by
  have habs : |-x - ((-n : ℤ) : ℚ)| = |x - n| := by
    rw [Int.cast_neg, neg_sub_neg, abs_sub_comm]
  rw [IsNearest, habs, even_neg]
  exact h

/-- Rounding keeps the order to an integer. -/
theorem IsNearest.le {x : ℚ} {n a : ℤ} (h : IsNearest x n) (ha : a ≤ x) : a ≤ n := by
  by_contra hlt
  have hcast : (n : ℚ) + 1 ≤ a := by exact_mod_cast Int.add_one_le_iff.2 (not_le.1 hlt)
  have hdist := h.1
  have habs := le_abs_self (x - n)
  linarith

theorem IsNearest.ge {x : ℚ} {n a : ℤ} (h : IsNearest x n) (ha : x ≤ a) : n ≤ a := by
  have hneg := h.neg.le (a := -a) (by rw [Int.cast_neg]; exact neg_le_neg ha)
  omega

theorem RoundsTo.neg {p : Nat} {v q : ℚ} (h : RoundsTo p v q) : RoundsTo p (-v) (-q) := by
  obtain ⟨rfl, rfl⟩ | ⟨x, n, hlo, hhi, hn, rfl⟩ := h
  · exact .inl ⟨neg_zero, neg_zero⟩
  · refine .inr ⟨x, -n, by rwa [abs_neg], by rwa [abs_neg], ?_, ?_⟩
    · rw [neg_mul]
      exact hn.neg
    · rw [Int.cast_neg, neg_mul]

theorem leading_spec {p num den : Nat} (hp : 0 < p) (hnum : 0 < num) (hden : 0 < den) :
    10 ^ (p - 1) ≤ (leading p num den).1 ∧ (leading p num den).1 < 10 ^ p ∧
      RoundsTo p (num / den) ((leading p num den).1 * 10 ^ ((leading p num den).2 + 1 - p)) := by
  have hv : (0 : ℚ) < num / den := div_pos (Nat.cast_pos.2 hnum) (Nat.cast_pos.2 hden)
  have hlo := Int.zpow_log_le_self (b := 10) (by decide) hv
  have hhi := Int.lt_zpow_succ_log_self (b := 10) (by decide) ((num : ℚ) / den)
  have hn := scaled_nearest num hden (p - 1 - decimalExponent num den)
  unfold leading
  dsimp only
  rw [← decimalExponent_eq hnum hden] at hlo hhi
  push_cast at hlo hhi
  generalize decimalExponent num den = x at *
  generalize scaled num den (p - 1 - x) = n at *
  generalize (num : ℚ) / den = v at *
  have hten : (0 : ℚ) < 10 := by norm_num
  have hpos : (0 : ℚ) < 10 ^ ((p : ℤ) - 1 - x) := zpow_pos hten _
  have hscale : ∀ j k : ℤ, (10 : ℚ) ^ j * 10 ^ k = 10 ^ (j + k) := fun j k => (zpow_add₀ hten.ne' j k).symm
  have hpred : ((p - 1 : Nat) : ℤ) = p - 1 := by omega
  -- the rounded value has `p` digits, or is the next power of ten
  have hge : 10 ^ (p - 1) ≤ n := by
    have h := hn.le (a := (10 ^ (p - 1) : Nat)) (by
      rw [Int.cast_natCast, Nat.cast_pow, ← zpow_natCast, hpred]
      refine le_of_eq_of_le ?_ (mul_le_mul_of_nonneg_right hlo hpos.le)
      rw [hscale, add_sub_cancel]
      rfl)
    exact_mod_cast h
  have hle : n ≤ 10 ^ p := by
    have h := hn.ge (a := (10 ^ p : Nat)) (by
      rw [Int.cast_natCast, Nat.cast_pow, ← zpow_natCast]
      refine (mul_le_mul_of_nonneg_right hhi.le hpos.le).trans_eq ?_
      rw [hscale, show x + 1 + ((p : ℤ) - 1 - x) = p by ring]
      rfl)
    exact_mod_cast h
  have hrounds : ∀ q : ℚ, q = n * 10 ^ (x + 1 - p) → RoundsTo p v q := fun q hq =>
    .inr ⟨x, n, by rwa [abs_of_pos hv], by rwa [abs_of_pos hv], hn, hq⟩
  split_ifs with hcarry
  · refine ⟨le_refl _, Nat.pow_lt_pow_right (by decide) (by omega), hrounds _ ?_⟩
    rw [hcarry]
    push_cast
    rw [← zpow_natCast, ← zpow_natCast, hpred, hscale, hscale]
    congr 1
    ring
  · exact ⟨hge, lt_of_le_of_ne hle hcarry, hrounds _ rfl⟩

/-! ## The parts of a text -/

theorem digit_ne {c d : UInt8} (hc : isDigit c = true) (hd : isDigit d = false) : c ≠ d := by
  rintro rfl
  cases hc.symm.trans hd

theorem digits_plain {ds : List UInt8} (h : Digits ds) : ∀ c ∈ ds, isExp c = false ∧ c ≠ 0x2E ∧ c ≠ 0x2D := by
  intro c hc
  have hne {d : UInt8} (hd : isDigit d = false) : c ≠ d := digit_ne (h c hc) hd
  refine ⟨?_, hne (by decide), hne (by decide)⟩
  simp [isExp, hne (d := 0x65) (by decide), hne (d := 0x45) (by decide)]

/-- A list is split at the first element that does not pass the test. -/
theorem while_split {α : Type} {p : α → Bool} {l r : List α} (hl : ∀ a ∈ l, p a = true)
    (hr : ∀ c s, r = c :: s → p c = false) :
    (l ++ r).takeWhile p = l ∧ (l ++ r).dropWhile p = r := by
  rw [List.takeWhile_append_of_pos hl, List.dropWhile_append_of_pos hl]
  cases r with
  | nil => exact ⟨List.append_nil _, rfl⟩
  | cons c s =>
    have hc := hr c s rfl
    rw [List.takeWhile_cons_of_neg (by simp [hc]), List.dropWhile_cons_of_neg (by simp [hc])]
    exact ⟨List.append_nil _, rfl⟩

/-- The parts of a number. -/
theorem readNumber_parts (negative : Bool) {ds f fs e : List UInt8} (hne : ds ≠ []) (hds : Digits ds)
    (hfs : Digits fs) (hf : f = [] ∧ fs = [] ∨ f = 0x2E :: fs) (he : ∀ c s, e = c :: s → isExp c = true) :
    readNumber (signText negative ++ (ds ++ (f ++ e))) =
      (negative, (natValue (ds ++ fs) : ℚ) * 10 ^ (exponentValue e.tail - fs.length)) := by
  have hneg : ((signText negative ++ (ds ++ (f ++ e))).head? == some 0x2D) = negative := by
    cases negative with
    | true => rfl
    | false =>
      obtain ⟨d, ds, rfl⟩ := List.exists_cons_of_ne_nil hne
      simp [signText, (digits_plain hds d (.head _)).2.2]
  have hsign : (if negative then (signText negative ++ (ds ++ (f ++ e))).tail
      else signText negative ++ (ds ++ (f ++ e))) = (ds ++ f) ++ e := by
    cases negative <;> simp [signText]
  have hmantissa : ∀ c ∈ ds ++ f, (!isExp c) = true := by
    intro c hc
    rw [Bool.not_eq_true']
    obtain hc | hc := List.mem_append.1 hc
    · exact (digits_plain hds c hc).1
    · obtain ⟨rfl, -⟩ | rfl := hf
      · cases hc
      · obtain rfl | hc := List.mem_cons.1 hc
        · rfl
        · exact (digits_plain hfs c hc).1
  obtain ⟨htake, hdrop⟩ := while_split (r := e) hmantissa fun c s hc => by rw [he c s hc]; rfl
  obtain ⟨hwhole, hpoint⟩ := while_split (p := (· != 0x2E)) (l := ds) (r := f)
    (fun c hc => bne_iff_ne.2 (digits_plain hds c hc).2.1) fun c s hc => by
      obtain ⟨rfl, -⟩ | rfl := hf
      · cases hc
      · cases hc
        rfl
  have hfrac : f.tail = fs := by
    obtain ⟨rfl, rfl⟩ | rfl := hf <;> rfl
  unfold readNumber
  dsimp only
  rw [hneg, hsign, htake, hdrop, hwhole, hpoint, hfrac]

/-! ## The printed digits -/

theorem natValue_append (a b : List UInt8) : natValue (a ++ b) = natValue a * 10 ^ b.length + natValue b := by
  induction b using List.reverseRecOn with
  | nil => simp [natValue]
  | append_singleton b c ih =>
    rw [← List.append_assoc, natValue_concat, ih, natValue_concat, List.length_append, List.length_singleton,
      Nat.pow_succ]
    ring

theorem padded_length : ∀ k n : Nat, (padded k n).length = k
  | 0, _ => rfl
  | k + 1, n => by rw [padded, List.length_append, padded_length k]; rfl

theorem natValue_padded : ∀ {k n : Nat}, n < 10 ^ k → natValue (padded k n) = n
  | 0, n, h => by
    obtain rfl : n = 0 := by simpa using h
    rfl
  | k + 1, n, h => by
    rw [padded, natValue_concat, natValue_padded (k := k) (by rw [Nat.pow_succ] at h; omega),
      digitVal_digit (by omega)]
    omega

/-- Trailing zeros do not count. -/
theorem natValue_trimmed (a : List UInt8) (k n : Nat) :
    let ds := (padded k n).rdropWhile (· == 0x30)
    (natValue (a ++ ds) : ℚ) / 10 ^ ds.length = natValue (a ++ padded k n) / 10 ^ k := by
  induction k generalizing n with
  | zero => rfl
  | succ k ih =>
    intro ds
    by_cases hc : (digit (n % 10) == 0x30) = true
    · have hds : ds = (padded k (n / 10)).rdropWhile (· == 0x30) := List.rdropWhile_concat_pos _ _ _ hc
      have hzero : digitVal (digit (n % 10)) = 0 := by
        rw [beq_iff_eq.1 hc]
        rfl
      rw [hds, ih (n / 10), padded, ← List.append_assoc, natValue_concat, hzero, pow_succ]
      push_cast
      field_simp
      ring
    · have hds : ds = padded (k + 1) n := List.rdropWhile_concat_neg _ _ _ hc
      rw [hds, padded_length]

theorem trimmed_eq_nil {k n : Nat} (hn : n < 10 ^ k) : (padded k n).rdropWhile (· == 0x30) = [] ↔ n = 0 := by
  refine ⟨fun h => ?_, ?_⟩
  · have hvalue := natValue_trimmed [] k n
    rw [h] at hvalue
    simp only [List.append_nil, List.nil_append, natValue_padded hn] at hvalue
    have hzero : (n : ℚ) / 10 ^ k = 0 := hvalue.symm.trans (by simp [natValue])
    simpa using hzero
  · rintro rfl
    clear hn
    induction k with
    | zero => rfl
    | succ k ih =>
      rw [padded, List.rdropWhile_concat_pos _ _ _ (by decide), Nat.zero_div]
      exact ih

/-- What is read of `d / 10 ^ k` with an exponent behind it. -/
theorem readNumber_fixed (negative : Bool) (d k : Nat) {e : List UInt8}
    (he : ∀ c s, e = c :: s → isExp c = true) :
    readNumber (signText negative ++ (fixedText d k ++ e)) =
      (negative, (d : ℚ) / 10 ^ k * 10 ^ exponentValue e.tail) := by
  have hten : (10 : ℚ) ≠ 0 := by norm_num
  have hlt : d % 10 ^ k < 10 ^ k := Nat.mod_lt _ (Nat.pow_pos (by decide))
  obtain ⟨ds, hds⟩ : ∃ ds, ds = (padded k (d % 10 ^ k)).rdropWhile (· == 0x30) := ⟨_, rfl⟩
  have hdigits : Digits ds := fun c hc =>
    padded_digits k _ c ((List.rdropWhile_prefix _ _).subset (hds ▸ hc))
  have hf : fracText k (d % 10 ^ k) = [] ∧ ds = [] ∨ fracText k (d % 10 ^ k) = 0x2E :: ds := by
    unfold fracText
    dsimp only
    rw [← hds]
    split_ifs with h
    · exact .inl ⟨rfl, h⟩
    · exact .inr rfl
  have hvalue : (natValue (natText (d / 10 ^ k) ++ ds) : ℚ) / 10 ^ ds.length = d / 10 ^ k := by
    rw [hds, natValue_trimmed, natValue_append, natValue_natText, padded_length, natValue_padded hlt]
    congr 1
    exact_mod_cast Nat.div_add_mod' d (10 ^ k)
  rw [fixedText, List.append_assoc,
    readNumber_parts negative (natText_ne_nil _) (natText_digits _) hdigits hf he, zpow_sub₀ hten, ← hvalue]
  rw [zpow_natCast]
  congr 1
  ring

theorem exponentValue_expText (x : ℤ) : exponentValue (expText x).tail = x := by
  have hvalue : natValue ((if x.natAbs < 10 then [0x30] else []) ++ natText x.natAbs) = x.natAbs := by
    rw [natValue_append, natValue_natText]
    split_ifs <;> simp [natValue, digitVal]
  unfold expText exponentValue
  by_cases h : 0 ≤ x
  · rw [if_pos h, List.tail_cons, if_neg (by simp), if_pos (by simp)]
    show (natValue (_ ++ _) : ℤ) = x
    rw [List.nil_append, hvalue]
    omega
  · rw [if_neg h, List.tail_cons, if_pos (by simp)]
    show -(natValue (_ ++ _) : ℤ) = x
    rw [List.nil_append, hvalue]
    omega

/-! ## What the text of a double says -/

theorem leading_zero (p : Nat) {den : Nat} (hden : 0 < den) : leading p 0 den = (0, 0) := by
  have hexponent : decimalExponent 0 den = 0 := if_pos rfl
  have hn := scaled_nearest 0 hden ((p : ℤ) - 1 - 0)
  have hscaled : scaled 0 den ((p : ℤ) - 1 - 0) = 0 := by
    have h := hn.ge (a := 0) (by simp)
    omega
  unfold leading
  dsimp only
  rw [hexponent, hscaled, if_neg (Nat.pow_pos (by decide)).ne]

theorem Whole.neg {p : Nat} {q : ℚ} : Whole p (-q) ↔ Whole p q := by
  rw [Whole, Rat.neg_den, abs_neg]
  rfl

/-- The digits `d` and the exponent `x` of the first one are those of `v`. -/
structure Leading (p : Nat) (v : ℚ) (d : Nat) (x : ℤ) : Prop where
  rounds : RoundsTo p v (d * 10 ^ (x + 1 - p))
  lt : d < 10 ^ p
  first : d = 0 ∧ x = 0 ∨ 10 ^ (p - 1) ≤ d

theorem leading_digits {p : Nat} (hp : 0 < p) (b : UInt64) :
    Leading p (absValue b) (leading p (magnitude b).1 (magnitude b).2).1
      (leading p (magnitude b).1 (magnitude b).2).2 := by
  have hden := magnitude_den_pos b
  unfold absValue
  obtain hnum | hnum := Nat.eq_zero_or_pos (magnitude b).1
  · rw [hnum, leading_zero p hden]
    exact ⟨.inl ⟨by simp, by simp⟩, Nat.pow_pos (by decide), .inl ⟨rfl, rfl⟩⟩
  · obtain ⟨hge, hlt, hrounds⟩ := leading_spec hp hnum hden
    exact ⟨hrounds, hlt, .inr hge⟩

theorem fixed_fractional {d k : Nat} (h : d % 10 ^ k ≠ 0) :
    (∃ c ∈ fixedText d k, c = 0x2E) ∧ ((d : ℚ) / 10 ^ k).den ≠ 1 := by
  have hten : (10 : ℚ) ^ k ≠ 0 := by positivity
  refine ⟨⟨0x2E, ?_, rfl⟩, fun hden => h ?_⟩
  · refine List.mem_append_right _ ?_
    unfold fracText
    dsimp only
    rw [if_neg fun hnil => h ((trimmed_eq_nil (Nat.mod_lt _ (Nat.pow_pos (by decide)))).1 hnil)]
    exact .head _
  · have hint : (d : ℚ) / 10 ^ k = ((d : ℚ) / 10 ^ k).num := (Rat.den_eq_one_iff _).1 hden |>.symm
    generalize ((d : ℚ) / 10 ^ k).num = z at hint
    rw [div_eq_iff hten] at hint
    have hz : (d : ℤ) = z * 10 ^ k := by exact_mod_cast hint
    refine Nat.mod_eq_zero_of_dvd ?_
    have hdvd : ((10 ^ k : Nat) : ℤ) ∣ (d : ℤ) := ⟨z, by rw [hz, mul_comm]; push_cast; rfl⟩
    exact_mod_cast hdvd

/-- **The text of a double** is its value to `p` significant digits, with a point or an exponent unless that is
an integer of at most `p` digits. -/
theorem generalText_reads {p : Nat} (hp : 0 < p) (b : UInt64) : ∃ q, 0 ≤ q ∧ RoundsTo p (absValue b) q ∧
    readNumber (generalText p b) = (isNegative b, q) ∧
    (Fractional (generalText p b) ∧ ¬Whole p q ∨
      ∃ n : Nat, q = n ∧ n < 10 ^ p ∧ generalText p b = signText (isNegative b) ++ natText n) := by
  have hten : (10 : ℚ) ≠ 0 := by norm_num
  obtain ⟨hrounds, hlt, hfirst⟩ := leading_digits hp b
  unfold generalText
  dsimp only
  generalize (leading p (magnitude b).1 (magnitude b).2).1 = d at *
  generalize (leading p (magnitude b).1 (magnitude b).2).2 = x at *
  refine ⟨_, by positivity, hrounds, ?_⟩
  split_ifs with hx
  · -- without an exponent
    obtain ⟨k, hk⟩ : ∃ k : Nat, k = ((p : ℤ) - 1 - x).toNat := ⟨_, rfl⟩
    have hq : (d : ℚ) * 10 ^ (x + 1 - p) = d / 10 ^ k := by
      rw [show x + 1 - p = -(k : ℤ) by omega, zpow_neg, zpow_natCast]
      rfl
    have hread := readNumber_fixed (isNegative b) d k (e := []) nofun
    rw [List.append_nil] at hread
    rw [← hk, hq]
    refine ⟨?_, ?_⟩
    · rw [hread]
      simp [exponentValue, natValue]
    · by_cases hzero : d % 10 ^ k = 0
      · obtain ⟨n, rfl⟩ := Nat.dvd_of_mod_eq_zero hzero
        have hpow : 0 < 10 ^ k := Nat.pow_pos (by decide)
        have hnil : fracText k 0 = [] := if_pos ((trimmed_eq_nil hpow).2 rfl)
        refine .inr ⟨n, ?_, (Nat.le_mul_of_pos_left n hpow).trans_lt hlt, ?_⟩
        · rw [Nat.cast_mul, Nat.cast_pow, Nat.cast_ofNat, mul_div_cancel_left₀ _ (pow_ne_zero k hten)]
        · rw [fixedText, hzero, hnil, List.append_nil, Nat.mul_div_cancel_left _ hpow]
      · obtain ⟨⟨c, hc, hpoint⟩, hden⟩ := fixed_fractional hzero
        exact .inl ⟨⟨c, List.mem_append_right _ hc, .inl hpoint⟩, fun h => hden h.1⟩
  · -- with an exponent
    have hge : 10 ^ (p - 1) ≤ d := hfirst.resolve_left fun h => hx (by omega)
    have hread := readNumber_fixed (isNegative b) d (p - 1) (e := expText x) fun c s hc => by
      cases hc
      rfl
    have hpred : ((p - 1 : Nat) : ℤ) = p - 1 := by omega
    refine ⟨?_, .inl ⟨⟨0x65, ?_, .inr rfl⟩, fun hwhole => ?_⟩⟩
    · rw [hread, exponentValue_expText]
      congr 1
      rw [div_mul_eq_mul_div, mul_div_assoc, ← zpow_natCast, ← zpow_sub₀ hten, hpred]
      congr 2
      ring
    · exact List.mem_append_right _ (List.mem_append_right _ (.head _))
    · -- at most `10 ^ p` is wrong for a large exponent, an integer for a small one
      obtain ⟨hden, hsmall⟩ := hwhole
      have hscale : (0 : ℚ) < 10 ^ (x + 1 - p) := zpow_pos (by norm_num) _
      have hlo : (10 : ℚ) ^ x ≤ d * 10 ^ (x + 1 - p) := by
        have hd : (10 : ℚ) ^ ((p : ℤ) - 1) ≤ d := by
          rw [← hpred, zpow_natCast]
          exact_mod_cast hge
        refine le_of_eq_of_le ?_ (mul_le_mul_of_nonneg_right hd hscale.le)
        rw [← zpow_add₀ hten]
        congr 1
        ring
      have hhi : (d : ℚ) * 10 ^ (x + 1 - p) < 10 ^ (x + 1) := by
        have hd : (d : ℚ) < 10 ^ (p : ℤ) := by
          rw [zpow_natCast]
          exact_mod_cast hlt
        refine lt_of_lt_of_eq (mul_lt_mul_of_pos_right hd hscale) ?_
        rw [← zpow_add₀ hten]
        congr 1
        ring
      have hint := (Rat.den_eq_one_iff _).1 hden
      have hpos : (0 : ℚ) < 10 ^ x := zpow_pos (by norm_num) _
      obtain hlarge | hlow : (p : ℤ) ≤ x ∨ x + 1 ≤ 0 := by omega
      · have hpow : (10 : ℚ) ^ p ≤ 10 ^ x := by
          rw [← zpow_natCast]
          exact zpow_le_zpow_right₀ (by norm_num) hlarge
        exact absurd ((le_abs_self _).trans_lt hsmall) (not_lt.2 (hpow.trans hlo))
      · have hone : (10 : ℚ) ^ (x + 1) ≤ 1 := zpow_le_one_of_nonpos₀ (by norm_num) hlow
        rw [← hint] at hlo hhi
        have h0 : (0 : ℚ) < _ := hpos.trans_le hlo
        have h1 := hhi.trans_le hone
        norm_cast at h0 h1
        omega

end Binary64
