import Mathlib.Algebra.Order.ToIntervalMod
import Mathlib.Data.Rat.Floor
import Mathlib.Tactic.FieldSimp
import Mathlib.Tactic.NormNum
import PhiSidecar.Lib.HueWheel

/-!
# Colours and HSV (`color.h`)

The conversions read over exact rational numbers in place of `double`: every constant is the
decimal the source writes.

* `wrapHue360_eq`: the truncating `fmod` with its correction is the residue in `[0, 360)`.
* `hsvToColor_at`, `colorToHsv_at`: both conversions follow one wheel (`HueWheel.At`).
* `hsv_inverse`: **the conversions undo each other**, up to the grey threshold.
-/

set_option autoImplicit false

namespace Phi.V1

open HueWheel

@[ext] structure Color where
  r : ℚ
  g : ℚ
  b : ℚ
  deriving DecidableEq

@[ext] structure Hsv where
  hDeg : ℚ
  s : ℚ
  v : ℚ
  deriving DecidableEq

def clamp01 (v : ℚ) : ℚ := if v < 0 then 0 else if v > 1 then 1 else v

def makeColor (r g b : ℚ) : Color := ⟨clamp01 r, clamp01 g, clamp01 b⟩

/-- `std::fmod`: the remainder of the quotient truncated towards zero. -/
def fmod (x y : ℚ) : ℚ := x - (if 0 ≤ x / y then ⌊x / y⌋ else ⌈x / y⌉) * y

def wrapHue360 (h : ℚ) : ℚ :=
  let r := fmod h 360
  if r < 0 then r + 360 else r

/-- The sector of `hPrime` decides which component gets the chroma `c`, which `x`, which none. -/
def sectorRgb (c x hPrime : ℚ) : ℚ × ℚ × ℚ :=
  if 0 ≤ hPrime ∧ hPrime < 1 then (c, x, 0)
  else if 1 ≤ hPrime ∧ hPrime < 2 then (x, c, 0)
  else if 2 ≤ hPrime ∧ hPrime < 3 then (0, c, x)
  else if 3 ≤ hPrime ∧ hPrime < 4 then (0, x, c)
  else if 4 ≤ hPrime ∧ hPrime < 5 then (x, 0, c)
  else (c, 0, x)

def hsvToColor (hDeg s01 v01 : ℚ) : Color :=
  let h := wrapHue360 hDeg
  let s := clamp01 s01
  let v := clamp01 v01
  if s ≤ 0 then makeColor v v v
  else
    let c := v * s
    let hPrime := h / 60
    let x := c * (1 - |fmod hPrime 2 - 1|)
    let (r1, g1, b1) := sectorRgb c x hPrime
    let m := v - c
    makeColor (r1 + m) (g1 + m) (b1 + m)

/-- The hue before it is wrapped, by the component that is largest (`r` first, then `g`). -/
def sectorHue (r g b maxC delta : ℚ) : ℚ :=
  if maxC = r then 60 * fmod ((g - b) / delta) 6
  else if maxC = g then 60 * ((b - r) / delta + 2)
  else 60 * ((r - g) / delta + 4)

def colorToHsv (color : Color) : Hsv :=
  let r := clamp01 color.r
  let g := clamp01 color.g
  let b := clamp01 color.b
  let maxC := max r (max g b)
  let minC := min r (min g b)
  let delta := maxC - minC
  if delta ≤ 1e-9 then ⟨0, 0, maxC⟩
  else ⟨wrapHue360 (sectorHue r g b maxC delta), delta / maxC, maxC⟩

/-! ## `fmod` and the hue -/

theorem clamp01_of_mem {v : ℚ} (h0 : 0 ≤ v) (h1 : v ≤ 1) : clamp01 v = v := by
  rw [clamp01, if_neg (not_lt.2 h0), if_neg (not_lt.2 h1)]

/-- `fmod` takes off a multiple of `y` and leaves less than one `y`, of either sign. -/
theorem fmod_spec (x : ℚ) {y : ℚ} (hy : 0 < y) : ∃ k : ℤ, x = fmod x y + k * y ∧ |fmod x y| < y := by
  rcases le_or_gt 0 (x / y) with hq | hq
  · have hlo := (le_div_iff₀ hy).1 (Int.floor_le (x / y))
    have hhi := (div_lt_iff₀ hy).1 (Int.lt_floor_add_one (x / y))
    refine ⟨⌊x / y⌋, ?_, ?_⟩ <;> rw [fmod, if_pos hq]
    · ring
    · rw [abs_lt]
      exact ⟨by linarith, by linarith⟩
  · have hlo := (div_le_iff₀ hy).1 (Int.le_ceil (x / y))
    have hhi : (⌈x / y⌉ - 1) * y < x := (lt_div_iff₀ hy).1 (by linarith [Int.ceil_lt_add_one (x / y)])
    refine ⟨⌈x / y⌉, ?_, ?_⟩ <;> rw [fmod, if_neg (not_le.2 hq)]
    · ring
    · rw [abs_lt]
      exact ⟨by linarith, by linarith⟩

/-- A remainder of a non-negative number is found by naming its quotient. -/
theorem fmod_of_quotient {x y : ℚ} (k : ℕ) (hy : 0 < y) (lo : k * y ≤ x) (hi : x < (k + 1) * y) :
    fmod x y = x - k * y := by
  have hk : (k : ℚ) ≤ x / y := (le_div_iff₀ hy).2 lo
  have hfloor : ⌊x / y⌋ = (k : ℤ) :=
    Int.floor_eq_iff.2 ⟨by exact_mod_cast hk, by exact_mod_cast (div_lt_iff₀ hy).2 hi⟩
  rw [fmod, if_pos (le_trans (Nat.cast_nonneg k) hk), hfloor, Int.cast_natCast]

/-- Less than one `y`, of either sign, is its own remainder. -/
theorem fmod_of_abs_lt {x y : ℚ} (h : |x| < y) : fmod x y = x := by
  have hy : 0 < y := (abs_nonneg x).trans_lt h
  obtain ⟨hlo, hhi⟩ := abs_lt.1 h
  rcases le_or_gt 0 (x / y) with hq | hq
  · have hfloor : ⌊x / y⌋ = 0 := Int.floor_eq_zero_iff.2 ⟨hq, (div_lt_one hy).2 hhi⟩
    rw [fmod, if_pos hq, hfloor, Int.cast_zero, zero_mul, sub_zero]
  · have hceil : ⌈x / y⌉ = 0 :=
      Int.ceil_eq_zero_iff.2 ⟨by rw [lt_div_iff₀ hy]; linarith, hq.le⟩
    rw [fmod, if_neg (not_le.2 hq), hceil, Int.cast_zero, zero_mul, sub_zero]

theorem period_pos : (0 : ℚ) < 360 := by norm_num

/-- The correction of a negative remainder makes `wrapHue360` the residue in `[0, 360)`. -/
theorem wrapHue360_eq (h : ℚ) : wrapHue360 h = toIcoMod period_pos 0 h := by
  symm
  rw [toIcoMod_eq_iff, Set.mem_Ico, zero_add]
  obtain ⟨k, hk, hlt⟩ := fmod_spec h period_pos
  obtain ⟨hlo, hhi⟩ := abs_lt.1 hlt
  by_cases hneg : fmod h 360 < 0
  · have hw : wrapHue360 h = fmod h 360 + 360 := if_pos hneg
    refine ⟨⟨by linarith, by linarith⟩, k - 1, ?_⟩
    rw [hw, zsmul_eq_mul]
    push_cast
    linarith
  · have hw : wrapHue360 h = fmod h 360 := if_neg hneg
    exact ⟨⟨by linarith, by linarith⟩, k, by rw [hw, zsmul_eq_mul, ← hk]⟩

theorem wrapHue360_mem (h : ℚ) : 0 ≤ wrapHue360 h ∧ wrapHue360 h < 360 := by
  rw [wrapHue360_eq]
  simpa using toIcoMod_mem_Ico period_pos 0 h

theorem wrapHue360_of_mem {h : ℚ} (h0 : 0 ≤ h) (h1 : h < 360) : wrapHue360 h = h := by
  rw [wrapHue360_eq, toIcoMod_eq_self, Set.mem_Ico, zero_add]
  exact ⟨h0, h1⟩

theorem wrapHue360_of_neg {h : ℚ} (h0 : -360 ≤ h) (h1 : h < 0) : wrapHue360 h = h + 360 := by
  rw [wrapHue360_eq, toIcoMod_eq_iff, Set.mem_Ico, zero_add]
  exact ⟨⟨by linarith, by linarith⟩, -1, by rw [neg_smul, one_smul]; ring⟩

/-! ## HSV to a colour -/

/-- In the first sector of a pair the second component rises, in the second it falls. -/
theorem rising {t : ℚ} (k : ℕ) (lo : 2 * k ≤ t) (hi : t ≤ 2 * k + 1) :
    1 - |fmod t 2 - 1| = t - 2 * k := by
  rw [fmod_of_quotient k two_pos (by linarith) (by linarith), abs_of_nonpos (by linarith)]
  ring

theorem falling {t : ℚ} (k : ℕ) (lo : 2 * k + 1 ≤ t) (hi : t < 2 * k + 2) :
    1 - |fmod t 2 - 1| = 2 * k + 2 - t := by
  rw [fmod_of_quotient k two_pos (by linarith) (by linarith), abs_of_nonneg (by linarith)]
  ring

/-- The chain of sectors follows the wheel. -/
theorem sectorRgb_at (c : ℚ) {t : ℚ} (h0 : 0 ≤ t) (h6 : t < 6) :
    ∃ r g b, At t r g b ∧
      sectorRgb c (c * (1 - |fmod t 2 - 1|)) t = (c * r, c * g, c * b) := by
  rcases lt_or_ge t 1 with h1 | h1
  · refine ⟨1, t, 0, .redYellow h0 h1.le rfl rfl rfl, ?_⟩
    have hx := rising 0 (by simpa using h0) (by simpa using h1.le)
    simp only [sectorRgb, hx, h0, h1, and_self, if_true]
    simp
  rcases lt_or_ge t 2 with h2 | h2
  · refine ⟨2 - t, 1, 0, .yellowGreen h1 h2.le rfl rfl rfl, ?_⟩
    have hx := falling 0 (by simpa using h1) (by simpa using h2)
    simp only [sectorRgb, hx, h1.not_gt, h1, h2, and_false, and_self, if_false, if_true]
    simp
  rcases lt_or_ge t 3 with h3 | h3
  · refine ⟨0, 1, t - 2, .greenCyan h2 h3.le rfl rfl rfl, ?_⟩
    have hx := rising (t := t) 1 (by norm_num; linarith) (by norm_num; linarith)
    simp only [sectorRgb, hx, h1.not_gt, h2.not_gt, h2, h3, and_false, and_self, if_false, if_true]
    simp
  rcases lt_or_ge t 4 with h4 | h4
  · refine ⟨0, 4 - t, 1, .cyanBlue h3 h4.le rfl rfl rfl, ?_⟩
    have hx := falling (t := t) 1 (by norm_num; linarith) (by norm_num; linarith)
    simp only [sectorRgb, hx, h1.not_gt, h2.not_gt, h3.not_gt, h3, h4, and_false, and_self,
      if_false, if_true]
    norm_num
  rcases lt_or_ge t 5 with h5 | h5
  · refine ⟨t - 4, 0, 1, .blueMagenta h4 h5.le rfl rfl rfl, ?_⟩
    have hx := rising (t := t) 2 (by norm_num; linarith) (by norm_num; linarith)
    simp only [sectorRgb, hx, h1.not_gt, h2.not_gt, h3.not_gt, h4.not_gt, h4, h5, and_false,
      and_self, if_false, if_true]
    norm_num
  · refine ⟨1, 0, 6 - t, .magentaRed h5 h6 rfl rfl rfl, ?_⟩
    have hx := falling (t := t) 2 (by norm_num; linarith) (by norm_num; linarith)
    simp only [sectorRgb, hx, h1.not_gt, h2.not_gt, h3.not_gt, h4.not_gt, h5.not_gt, and_false,
      if_false]
    norm_num

/-- Between `0` and `1` nothing is clamped. -/
theorem makeColor_of_mem {r g b : ℚ} (hr : 0 ≤ r ∧ r ≤ 1) (hg : 0 ≤ g ∧ g ≤ 1)
    (hb : 0 ≤ b ∧ b ≤ 1) : makeColor r g b = ⟨r, g, b⟩ := by
  rw [makeColor, clamp01_of_mem hr.1 hr.2, clamp01_of_mem hg.1 hg.2, clamp01_of_mem hb.1 hb.2]

/-- A colour of full chroma stretched to the chroma `c` and lifted by `m`. -/
def stretch (c m r g b : ℚ) : Color := ⟨c * r + m, c * g + m, c * b + m⟩

/-- **`hsvToColor` follows the wheel**: it stretches the colour at the hue to the chroma `v * s`
and lifts it to the value `v`. -/
theorem hsvToColor_at (hDeg : ℚ) {s v : ℚ} (hs : 0 < s ∧ s ≤ 1) (hv : 0 ≤ v ∧ v ≤ 1) :
    ∃ r g b, At (wrapHue360 hDeg / 60) r g b ∧
      hsvToColor hDeg s v = stretch (v * s) (v - v * s) r g b := by
  obtain ⟨hlo, hhi⟩ := wrapHue360_mem hDeg
  obtain ⟨r, g, b, hat, hsec⟩ := sectorRgb_at (v * s) (t := wrapHue360 hDeg / 60)
    (by linarith) (by linarith)
  obtain ⟨hr, hg, hb⟩ := hat.mem
  have hc0 : 0 ≤ v * s := mul_nonneg hv.1 hs.1.le
  have hcv : v * s ≤ v := mul_le_of_le_one_right hv.1 hs.2
  have hmem : ∀ {x : ℚ}, 0 ≤ x ∧ x ≤ 1 → 0 ≤ v * s * x + (v - v * s) ∧ v * s * x + (v - v * s) ≤ 1 :=
    fun hx => ⟨by linarith [mul_nonneg hc0 hx.1],
      by linarith [mul_le_of_le_one_right hc0 hx.2, hv.2]⟩
  refine ⟨r, g, b, hat, ?_⟩
  simp only [hsvToColor, clamp01_of_mem hs.1.le hs.2, clamp01_of_mem hv.1 hv.2, hs.1.not_ge,
    if_false, hsec]
  exact makeColor_of_mem (hmem hr) (hmem hg) (hmem hb)

/-! ## A colour to HSV -/

namespace Color

/-- Every component is in `[0, 1]`. -/
structure InCube (c : Color) : Prop where
  r : 0 ≤ c.r ∧ c.r ≤ 1
  g : 0 ≤ c.g ∧ c.g ≤ 1
  b : 0 ≤ c.b ∧ c.b ≤ 1

def maxC (c : Color) : ℚ := max c.r (max c.g c.b)
def minC (c : Color) : ℚ := min c.r (min c.g c.b)

/-- How far a component is from the smallest to the largest. -/
def rel (c : Color) (x : ℚ) : ℚ := (x - c.minC) / (c.maxC - c.minC)

variable (c : Color)

theorem le_maxC : c.r ≤ c.maxC ∧ c.g ≤ c.maxC ∧ c.b ≤ c.maxC := by simp [maxC]

theorem minC_le : c.minC ≤ c.r ∧ c.minC ≤ c.g ∧ c.minC ≤ c.b := by simp [minC]

theorem maxC_mem : c.r = c.maxC ∨ c.g = c.maxC ∨ c.b = c.maxC := by
  rcases max_choice c.r (max c.g c.b) with h | h
  · exact .inl h.symm
  · rcases max_choice c.g c.b with h' | h'
    · exact .inr (.inl (h'.symm.trans h.symm))
    · exact .inr (.inr (h'.symm.trans h.symm))

theorem minC_mem : c.r = c.minC ∨ c.g = c.minC ∨ c.b = c.minC := by
  rcases min_choice c.r (min c.g c.b) with h | h
  · exact .inl h.symm
  · rcases min_choice c.g c.b with h' | h'
    · exact .inr (.inl (h'.symm.trans h.symm))
    · exact .inr (.inr (h'.symm.trans h.symm))

variable {c}

theorem rel_mem (hd : 0 < c.maxC - c.minC) {x : ℚ} (h0 : c.minC ≤ x) (h1 : x ≤ c.maxC) :
    0 ≤ c.rel x ∧ c.rel x ≤ 1 :=
  ⟨div_nonneg (sub_nonneg.2 h0) hd.le, (div_le_one hd).2 (by linarith)⟩

theorem rel_max (hd : 0 < c.maxC - c.minC) {x : ℚ} (h : x = c.maxC) : c.rel x = 1 := by
  rw [rel, h, div_self hd.ne']

theorem rel_min {x : ℚ} (h : x = c.minC) : c.rel x = 0 := by rw [rel, h, sub_self, zero_div]

/-- The component, from where it is relative to the others. -/
theorem rel_back (hd : 0 < c.maxC - c.minC) (x : ℚ) :
    (c.maxC - c.minC) * c.rel x + c.minC = x := by
  rw [rel, mul_div_cancel₀ _ hd.ne', sub_add_cancel]

end Color

theorem colorToHsv_of_mem {c : Color} (hc : c.InCube) :
    colorToHsv c =
      if c.maxC - c.minC ≤ 1e-9 then ⟨0, 0, c.maxC⟩
      else ⟨wrapHue360 (sectorHue c.r c.g c.b c.maxC (c.maxC - c.minC)),
        (c.maxC - c.minC) / c.maxC, c.maxC⟩ := by
  simp only [colorToHsv, clamp01_of_mem hc.r.1 hc.r.2, clamp01_of_mem hc.g.1 hc.g.2,
    clamp01_of_mem hc.b.1 hc.b.2]
  rfl

/-- A wrapped hue in degrees, as a position on the wheel. -/
theorem wrapHue360_div {t : ℚ} (h0 : 0 ≤ t) (h6 : t < 6) : wrapHue360 (60 * t) / 60 = t := by
  rw [wrapHue360_of_mem (by linarith) (by linarith)]
  ring

/-- The three branches of the hue on a colour of full chroma. At the common end of two sectors
either branch gives the same position. -/
theorem sectorHue_pure {r g b : ℚ} (hmem : (0 ≤ r ∧ r ≤ 1) ∧ (0 ≤ g ∧ g ≤ 1) ∧ 0 ≤ b ∧ b ≤ 1)
    (h1 : r = 1 ∨ g = 1 ∨ b = 1) (h0 : r = 0 ∨ g = 0 ∨ b = 0) :
    At (wrapHue360 (sectorHue r g b 1 1) / 60) r g b := by
  obtain ⟨⟨hr0, hr1⟩, ⟨hg0, hg1⟩, hb0, hb1⟩ := hmem
  simp only [sectorHue, div_one]
  by_cases hr : 1 = r
  · rw [if_pos hr, fmod_of_abs_lt (abs_lt.2 ⟨by linarith, by linarith⟩)]
    rcases le_or_gt b g with hgb | hgb
    · have hb : b = 0 := by rcases h0 with h | h | h <;> linarith
      rw [wrapHue360_div (by linarith) (by linarith)]
      exact .redYellow (by linarith) (by linarith) hr.symm (by linarith) hb
    · have hg : g = 0 := by rcases h0 with h | h | h <;> linarith
      rw [wrapHue360_of_neg (by linarith) (by linarith)]
      exact .magentaRed (by linarith) (by linarith) hr.symm hg (by linarith)
  have hr' : r < 1 := lt_of_le_of_ne hr1 (Ne.symm hr)
  rw [if_neg hr]
  by_cases hg : 1 = g
  · rw [if_pos hg, wrapHue360_div (by linarith) (by linarith)]
    rcases le_or_gt b r with hbr | hbr
    · have hb : b = 0 := by rcases h0 with h | h | h <;> linarith
      exact .yellowGreen (by linarith) (by linarith) (by linarith) hg.symm hb
    · have hr : r = 0 := by rcases h0 with h | h | h <;> linarith
      exact .greenCyan (by linarith) (by linarith) hr hg.symm (by linarith)
  have hg' : g < 1 := lt_of_le_of_ne hg1 (Ne.symm hg)
  have hb : b = 1 := by rcases h1 with h | h | h <;> linarith
  rw [if_neg hg, wrapHue360_div (by linarith) (by linarith)]
  rcases le_or_gt r g with hrg | hrg
  · have hr : r = 0 := by rcases h0 with h | h | h <;> linarith
    exact .cyanBlue (by linarith) (by linarith) hr (by linarith) hb
  · have hg : g = 0 := by rcases h0 with h | h | h <;> linarith
    exact .blueMagenta (by linarith) (by linarith) (by linarith) hg hb

/-- The hue only depends on the components relative to the largest and the smallest. -/
theorem sectorHue_scale (r g b m : ℚ) {d : ℚ} (hd : 0 < d) :
    sectorHue r g b (d + m) d = sectorHue ((r - m) / d) ((g - m) / d) ((b - m) / d) 1 1 := by
  have hdiff : ∀ x y : ℚ, ((x - m) / d - (y - m) / d) / 1 = (x - y) / d := fun x y => by
    rw [div_one, ← sub_div, sub_sub_sub_cancel_right]
  have hmax : ∀ x : ℚ, 1 = (x - m) / d ↔ d + m = x := fun x => by
    rw [eq_div_iff hd.ne', one_mul, eq_sub_iff_add_eq]
  simp only [sectorHue, hdiff, hmax]

/-- **`colorToHsv` follows the wheel**: the hue is the position of the colour's pure part. -/
theorem colorToHsv_at {c : Color} (hc : c.InCube) (hd : 1e-9 < c.maxC - c.minC) :
    At ((colorToHsv c).hDeg / 60) (c.rel c.r) (c.rel c.g) (c.rel c.b) ∧
      (colorToHsv c).s = (c.maxC - c.minC) / c.maxC ∧ (colorToHsv c).v = c.maxC := by
  have hd0 : 0 < c.maxC - c.minC := lt_trans (by norm_num) hd
  obtain ⟨hrM, hgM, hbM⟩ := c.le_maxC
  obtain ⟨hmr, hmg, hmb⟩ := c.minC_le
  have hpure := sectorHue_pure
    ⟨Color.rel_mem hd0 hmr hrM, Color.rel_mem hd0 hmg hgM, Color.rel_mem hd0 hmb hbM⟩
    (c.maxC_mem.imp (Color.rel_max hd0) (Or.imp (Color.rel_max hd0) (Color.rel_max hd0)))
    (c.minC_mem.imp Color.rel_min (Or.imp Color.rel_min Color.rel_min))
  have hscale := sectorHue_scale c.r c.g c.b c.minC hd0
  rw [sub_add_cancel] at hscale
  rw [colorToHsv_of_mem hc, if_neg (not_le.2 hd)]
  refine ⟨?_, rfl, rfl⟩
  simp only [hscale]
  exact hpure

/-! ## The round trips -/

theorem stretch_minC {t r g b c : ℚ} (m : ℚ) (hat : At t r g b) (hc : 0 ≤ c) :
    (stretch c m r g b).minC = m := by
  obtain ⟨hr, hg, hb⟩ := hat.mem
  refine le_antisymm ?_ (le_min ?_ (le_min ?_ ?_))
  · obtain ⟨hmr, hmg, hmb⟩ := (stretch c m r g b).minC_le
    simp only [stretch] at hmr hmg hmb ⊢
    rcases hat.pure.2 with rfl | rfl | rfl <;> linarith
  · exact le_add_of_nonneg_left (mul_nonneg hc hr.1)
  · exact le_add_of_nonneg_left (mul_nonneg hc hg.1)
  · exact le_add_of_nonneg_left (mul_nonneg hc hb.1)

theorem stretch_maxC {t r g b c : ℚ} (m : ℚ) (hat : At t r g b) (hc : 0 ≤ c) :
    (stretch c m r g b).maxC = c + m := by
  obtain ⟨hr, hg, hb⟩ := hat.mem
  refine le_antisymm (max_le ?_ (max_le ?_ ?_)) ?_
  · exact add_le_add_left (mul_le_of_le_one_right hc hr.2) m
  · exact add_le_add_left (mul_le_of_le_one_right hc hg.2) m
  · exact add_le_add_left (mul_le_of_le_one_right hc hb.2) m
  · obtain ⟨hrM, hgM, hbM⟩ := (stretch c m r g b).le_maxC
    simp only [stretch] at hrM hgM hbM ⊢
    rcases hat.pure.1 with rfl | rfl | rfl <;> linarith

/-- A stretched colour still has the pure one as its relative components. -/
theorem stretch_rel {t r g b c : ℚ} (m : ℚ) (hat : At t r g b) (hc : 0 < c) (x : ℚ) :
    (stretch c m r g b).rel (c * x + m) = x := by
  rw [Color.rel, stretch_minC m hat hc.le, stretch_maxC m hat hc.le, add_sub_cancel_right,
    add_sub_cancel_right, mul_div_cancel_left₀ _ hc.ne']

/-- A colour converted to HSV and back. -/
def throughHsv (c : Color) : Color :=
  hsvToColor (colorToHsv c).hDeg (colorToHsv c).s (colorToHsv c).v

/-- Above the grey threshold a colour comes back exactly. -/
theorem throughHsv_eq {c : Color} (hc : c.InCube) (hd : 1e-9 < c.maxC - c.minC) :
    throughHsv c = c := by
  have hd0 : 0 < c.maxC - c.minC := lt_trans (by norm_num) hd
  have hm0 : 0 ≤ c.minC := le_min hc.r.1 (le_min hc.g.1 hc.b.1)
  have hM0 : 0 < c.maxC := by linarith
  have hM1 : c.maxC ≤ 1 := max_le hc.r.2 (max_le hc.g.2 hc.b.2)
  obtain ⟨hat, hs, hv⟩ := colorToHsv_at hc hd
  have hs01 : 0 < (colorToHsv c).s ∧ (colorToHsv c).s ≤ 1 := by
    rw [hs]
    exact ⟨div_pos hd0 hM0, (div_le_one hM0).2 (by linarith)⟩
  obtain ⟨r, g, b, hat', hcol⟩ := hsvToColor_at (colorToHsv c).hDeg hs01
    ⟨hv.symm ▸ hM0.le, hv.symm ▸ hM1⟩
  obtain ⟨h0, h6⟩ := hat.range
  rw [wrapHue360_of_mem (by linarith) (by linarith)] at hat'
  obtain ⟨rfl, rfl, rfl⟩ := hat.unique hat'
  have hchroma : (colorToHsv c).v * (colorToHsv c).s = c.maxC - c.minC := by
    rw [hs, hv, mul_div_cancel₀ _ hM0.ne']
  rw [throughHsv, hcol, hchroma, hv, sub_sub_cancel]
  simp only [stretch, Color.rel_back hd0]

/-- A colour within the grey threshold comes back as the grey of its largest component. -/
theorem throughHsv_grey {c : Color} (hc : c.InCube) (hd : c.maxC - c.minC ≤ 1e-9) :
    throughHsv c = ⟨c.maxC, c.maxC, c.maxC⟩ := by
  have hM0 : 0 ≤ c.maxC := hc.r.1.trans c.le_maxC.1
  have hM1 : c.maxC ≤ 1 := max_le hc.r.2 (max_le hc.g.2 hc.b.2)
  rw [throughHsv, colorToHsv_of_mem hc, if_pos hd]
  simp only [hsvToColor, clamp01_of_mem le_rfl zero_le_one, le_refl, if_true,
    clamp01_of_mem hM0 hM1]
  exact makeColor_of_mem ⟨hM0, hM1⟩ ⟨hM0, hM1⟩ ⟨hM0, hM1⟩

/-- A hue, a saturation and a value come back when their chroma is above the grey threshold. -/
theorem colorToHsv_hsvToColor (h : ℚ) {s v : ℚ} (hs : 0 ≤ s ∧ s ≤ 1) (hv : 0 ≤ v ∧ v ≤ 1)
    (hsv : 1e-9 < s * v) : colorToHsv (hsvToColor h s v) = ⟨wrapHue360 h, s, v⟩ := by
  have hpos : 0 < v * s := by
    rw [mul_comm]
    exact lt_trans (by norm_num) hsv
  have hs0 : 0 < s := lt_of_le_of_ne hs.1 fun h0 => by simp [← h0] at hpos
  have hv0 : 0 < v := lt_of_le_of_ne hv.1 fun h0 => by simp [← h0] at hpos
  have hcv : v * s ≤ v := mul_le_of_le_one_right hv.1 hs.2
  obtain ⟨r, g, b, hat, hcol⟩ := hsvToColor_at h ⟨hs0, hs.2⟩ hv
  obtain ⟨c, hc⟩ : ∃ c, c = stretch (v * s) (v - v * s) r g b := ⟨_, rfl⟩
  rw [hcol, ← hc]
  have hmin : c.minC = v - v * s := hc ▸ stretch_minC _ hat hpos.le
  have hmax : c.maxC = v := hc ▸ (stretch_maxC _ hat hpos.le).trans (add_sub_cancel _ _)
  have hdelta : c.maxC - c.minC = v * s := by rw [hmin, hmax, sub_sub_cancel]
  have hmem : ∀ {x : ℚ}, c.minC ≤ x → x ≤ c.maxC → 0 ≤ x ∧ x ≤ 1 := fun hlo hhi =>
    ⟨by linarith, by linarith [hv.2]⟩
  obtain ⟨hrM, hgM, hbM⟩ := c.le_maxC
  obtain ⟨hmr, hmg, hmb⟩ := c.minC_le
  obtain ⟨hat', hs', hv'⟩ := colorToHsv_at ⟨hmem hmr hrM, hmem hmg hgM, hmem hmb hbM⟩
    (by rw [hdelta, mul_comm]; exact hsv)
  rw [hmax] at hv'
  rw [hdelta, hmax, mul_div_cancel_left₀ _ hv0.ne'] at hs'
  have hrel : c.rel c.r = r ∧ c.rel c.g = g ∧ c.rel c.b = b := by
    rw [hc]
    exact ⟨stretch_rel _ hat hpos r, stretch_rel _ hat hpos g, stretch_rel _ hat hpos b⟩
  rw [hrel.1, hrel.2.1, hrel.2.2] at hat'
  have hhue : (colorToHsv c).hDeg = wrapHue360 h := by linarith [hat'.injective hat]
  exact Hsv.ext hhue hs' hv'

/-- A colour comes back up to `1e-9` in each component, and unchanged if its chroma is `0` or above the
grey threshold. A saturation and a value whose chroma is above it come back unchanged, and the hue comes
back reduced into `[0, 360)`. -/
theorem hsv_inverse :
    (∀ c : Color, c.InCube →
      (|(throughHsv c).r - c.r| ≤ 1e-9 ∧ |(throughHsv c).g - c.g| ≤ 1e-9 ∧
          |(throughHsv c).b - c.b| ≤ 1e-9) ∧
        (c.maxC - c.minC = 0 ∨ c.maxC - c.minC > 1e-9 → throughHsv c = c)) ∧
    ∀ h s v : ℚ, 0 ≤ s ∧ s ≤ 1 → 0 ≤ v ∧ v ≤ 1 → s * v > 1e-9 →
      colorToHsv (hsvToColor h s v) = ⟨toIcoMod period_pos 0 h, s, v⟩ := by
  refine ⟨fun c hc => ?_, fun h s v hs hv hsv => ?_⟩
  · rcases le_or_gt (c.maxC - c.minC) 1e-9 with hd | hd
    · obtain ⟨hrM, hgM, hbM⟩ := c.le_maxC
      obtain ⟨hmr, hmg, hmb⟩ := c.minC_le
      rw [throughHsv_grey hc hd]
      refine ⟨⟨?_, ?_, ?_⟩, ?_⟩
      · exact abs_le.2 ⟨by linarith, by linarith⟩
      · exact abs_le.2 ⟨by linarith, by linarith⟩
      · exact abs_le.2 ⟨by linarith, by linarith⟩
      · rintro (h0 | hgt)
        · exact Color.ext (by linarith) (by linarith) (by linarith)
        · exact absurd hgt (not_lt.2 hd)
    · rw [throughHsv_eq hc hd]
      refine ⟨?_, fun _ => rfl⟩
      norm_num
  · rw [colorToHsv_hsvToColor h hs hv hsv, wrapHue360_eq]

/-- Orange comes back exactly, and at `-45` degrees the hue comes back as `315`. -/
theorem hsv_inverse_orange :
    throughHsv ⟨1, 1 / 2, 0⟩ = ⟨1, 1 / 2, 0⟩ ∧
      colorToHsv (hsvToColor (-45) (1 / 2) (4 / 5)) = ⟨toIcoMod period_pos 0 (-45), 1 / 2, 4 / 5⟩ ∧
      toIcoMod period_pos 0 (-45) = 315 :=
  ⟨(hsv_inverse.1 ⟨1, 1 / 2, 0⟩ ⟨by norm_num, by norm_num, by norm_num⟩).2
      (.inr (by norm_num [Color.maxC, Color.minC])),
    hsv_inverse.2 (-45) (1 / 2) (4 / 5) ⟨by norm_num, by norm_num⟩ ⟨by norm_num, by norm_num⟩
      (by norm_num),
    toIcoMod_eq_iff period_pos |>.2 ⟨⟨by norm_num, by norm_num⟩, -1, by norm_num⟩⟩

end Phi.V1
