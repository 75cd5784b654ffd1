import PhiSidecar.V1.Color

/-!
# Colours and xy chromaticity (`color.h`)

The xy pipeline over exact rational numbers. A division is checked, so that dividing by zero is
visible, and the gamma functions (`std::pow`) are parameters.

* `xyOfLinear_spec`: chromaticity and luminance of a linear colour that is not black.
* `xyzOfXy_xyOfLinear`: expanding them again gives the same `X`, `Y`, `Z`.
* `linear_through_xy`: **a linear colour comes back within `1e-4`**.
* `colorFromXy_colorToXy`: so does the linear part of the whole pipeline, for any gamma.
-/

set_option autoImplicit false

namespace Phi.V1

structure LinearRgb where
  r : ℚ
  g : ℚ
  b : ℚ
  deriving DecidableEq

structure Xyz where
  X : ℚ
  Y : ℚ
  Z : ℚ
  deriving DecidableEq

structure Xy where
  x : ℚ
  y : ℚ
  bri : ℚ
  deriving DecidableEq

def linearRgbToXyz (rgbLin : LinearRgb) : Xyz where
  X := 0.4124 * rgbLin.r + 0.3576 * rgbLin.g + 0.1805 * rgbLin.b
  Y := 0.2126 * rgbLin.r + 0.7152 * rgbLin.g + 0.0722 * rgbLin.b
  Z := 0.0193 * rgbLin.r + 0.1192 * rgbLin.g + 0.9505 * rgbLin.b

/-- The product with the second matrix, before it is clamped. -/
def xyzToRgb (c : Xyz) : LinearRgb where
  r := 3.2406 * c.X - 1.5372 * c.Y - 0.4986 * c.Z
  g := -0.9689 * c.X + 1.8758 * c.Y + 0.0415 * c.Z
  b := 0.0557 * c.X - 0.2040 * c.Y + 1.0570 * c.Z

def xyzToLinearRgb (c : Xyz) : LinearRgb :=
  ⟨clamp01 (xyzToRgb c).r, clamp01 (xyzToRgb c).g, clamp01 (xyzToRgb c).b⟩

/-- Division that fails on a zero divisor. -/
def checkedDiv (x y : ℚ) : Option ℚ := if y = 0 then none else some (x / y)

/-- `colorToXy`, after the gamma step. -/
def xyOfLinear (lin : LinearRgb) : Option Xy :=
  let c := linearRgbToXyz lin
  let sum := c.X + c.Y + c.Z
  if sum ≤ 1e-9 then some ⟨0.3127, 0.3290, 0⟩
  else do
    let x ← checkedDiv c.X sum
    let y ← checkedDiv c.Y sum
    pure ⟨x, y, clamp01 c.Y⟩

/-- What `colorFromXy` has before its gamma step: a grey, when `y` is too small to divide by, or
`X`, `Y` and `Z`. -/
def xyzOfXy (x y bri01 : ℚ) : Option (Except ℚ Xyz) :=
  let bri := clamp01 bri01
  if y ≤ 1e-6 then some (.error bri)
  else do
    let scale ← checkedDiv bri y
    pure (.ok ⟨scale * x, bri, scale * (1 - x - y)⟩)

section
variable (srgbToLinear linearToSrgb : ℚ → ℚ)

def colorToLinear (c : Color) : LinearRgb := ⟨srgbToLinear c.r, srgbToLinear c.g, srgbToLinear c.b⟩

def linearToColor (lin : LinearRgb) : Color :=
  ⟨clamp01 (linearToSrgb lin.r), clamp01 (linearToSrgb lin.g), clamp01 (linearToSrgb lin.b)⟩

def colorToXy (c : Color) : Option Xy := xyOfLinear (colorToLinear srgbToLinear c)

def colorFromXy (x y bri01 : ℚ) : Option Color := do
  match ← xyzOfXy x y bri01 with
  | .error v => pure (makeColor v v v)
  | .ok c => pure (linearToColor linearToSrgb (xyzToLinearRgb c))

end

/-! ## Normalising and expanding -/

namespace LinearRgb

/-- Every component is in `[0, 1]`. -/
structure InCube (c : LinearRgb) : Prop where
  r : 0 ≤ c.r ∧ c.r ≤ 1
  g : 0 ≤ c.g ∧ c.g ≤ 1
  b : 0 ≤ c.b ∧ c.b ≤ 1

/-- `X + Y + Z`. -/
def sum (lin : LinearRgb) : ℚ :=
  (linearRgbToXyz lin).X + (linearRgbToXyz lin).Y + (linearRgbToXyz lin).Z

end LinearRgb

/-- The luminance coefficients add up to `1`. -/
theorem luminance_mem {lin : LinearRgb} (h : lin.InCube) :
    0 ≤ (linearRgbToXyz lin).Y ∧ (linearRgbToXyz lin).Y ≤ 1 := by
  obtain ⟨⟨hr, hr'⟩, ⟨hg, hg'⟩, hb, hb'⟩ := h
  simp only [linearRgbToXyz]
  constructor <;> norm_num <;> linarith

/-- Every component has its share of luminance, blue the smallest: `Y` is above `0.06` of the
sum. -/
theorem luminance_share {lin : LinearRgb} (h : lin.InCube) :
    0.06 * lin.sum ≤ (linearRgbToXyz lin).Y := by
  obtain ⟨⟨hr, -⟩, ⟨hg, -⟩, hb, -⟩ := h
  simp only [LinearRgb.sum, linearRgbToXyz]
  norm_num
  linarith

theorem checkedDiv_of_ne {x y : ℚ} (h : y ≠ 0) : checkedDiv x y = some (x / y) := if_neg h

/-- A colour above the black threshold is divided by its sum, and `bri` is not clamped. -/
theorem xyOfLinear_spec {lin : LinearRgb} (h : lin.InCube) (hsum : 1e-9 < lin.sum) :
    xyOfLinear lin =
      some ⟨(linearRgbToXyz lin).X / lin.sum, (linearRgbToXyz lin).Y / lin.sum,
        (linearRgbToXyz lin).Y⟩ := by
  have hne : lin.sum ≠ 0 := (lt_trans (by norm_num) hsum).ne'
  obtain ⟨hY0, hY1⟩ := luminance_mem h
  have hunfold : xyOfLinear lin =
      if lin.sum ≤ 1e-9 then some ⟨0.3127, 0.3290, 0⟩
      else (checkedDiv (linearRgbToXyz lin).X lin.sum).bind fun x =>
        (checkedDiv (linearRgbToXyz lin).Y lin.sum).bind fun y =>
          some ⟨x, y, clamp01 (linearRgbToXyz lin).Y⟩ := rfl
  rw [hunfold, if_neg (not_le.2 hsum), checkedDiv_of_ne hne, checkedDiv_of_ne hne,
    clamp01_of_mem hY0 hY1]
  rfl

/-- The chromaticity of a colour that is not black has a `y` to divide by. -/
theorem xyOfLinear_y {lin : LinearRgb} (h : lin.InCube) (hsum : 1e-9 < lin.sum) :
    1e-6 < (linearRgbToXyz lin).Y / lin.sum := by
  have hpos : 0 < lin.sum := lt_trans (by norm_num) hsum
  rw [lt_div_iff₀ hpos]
  exact lt_of_lt_of_le (mul_lt_mul_of_pos_right (by norm_num) hpos) (luminance_share h)

/-- **The projective normalisation and its expansion cancel.** -/
theorem xyzOfXy_xyOfLinear {lin : LinearRgb} (h : lin.InCube) (hsum : 1e-9 < lin.sum) :
    xyzOfXy ((linearRgbToXyz lin).X / lin.sum) ((linearRgbToXyz lin).Y / lin.sum)
      (linearRgbToXyz lin).Y = some (.ok (linearRgbToXyz lin)) := by
  have hne : lin.sum ≠ 0 := (lt_trans (by norm_num) hsum).ne'
  have hy := xyOfLinear_y h hsum
  have hyne : (linearRgbToXyz lin).Y / lin.sum ≠ 0 := (lt_trans (by norm_num) hy).ne'
  have hYne : (linearRgbToXyz lin).Y ≠ 0 := fun h0 => hyne (by rw [h0, zero_div])
  obtain ⟨hY0, hY1⟩ := luminance_mem h
  have hscale : (linearRgbToXyz lin).Y / ((linearRgbToXyz lin).Y / lin.sum) = lin.sum := by
    rw [div_div_eq_mul_div, mul_div_cancel_left₀ _ hYne]
  have hX : lin.sum * ((linearRgbToXyz lin).X / lin.sum) = (linearRgbToXyz lin).X :=
    mul_div_cancel₀ _ hne
  have hZ : lin.sum * (1 - (linearRgbToXyz lin).X / lin.sum - (linearRgbToXyz lin).Y / lin.sum) =
      (linearRgbToXyz lin).Z := by
    rw [mul_sub, mul_sub, mul_div_cancel₀ _ hne, mul_div_cancel₀ _ hne, LinearRgb.sum]
    ring
  simp only [xyzOfXy, clamp01_of_mem hY0 hY1, if_neg (not_le.2 hy), checkedDiv_of_ne hyne, hscale,
    Option.bind_eq_bind, Option.bind_some, hX, hZ]
  rfl

/-! ## The two matrices -/

/-- A clamp does not move a number away from one in `[0, 1]`. -/
theorem abs_clamp01_sub_le {x y : ℚ} (h0 : 0 ≤ y) (h1 : y ≤ 1) : |clamp01 x - y| ≤ |x - y| := by
  rw [clamp01]
  split_ifs with hneg hbig
  · rw [abs_of_nonpos (by linarith), abs_of_nonpos (by linarith)]
    linarith
  · rw [abs_of_nonneg (by linarith), abs_of_nonneg (by linarith)]
    linarith
  · exact le_rfl

/-- Each row of the product of the two matrices is within `1e-4` of the identity's, in the sum of
absolute values. -/
theorem xyzToRgb_near {lin : LinearRgb} (h : lin.InCube) :
    |(xyzToRgb (linearRgbToXyz lin)).r - lin.r| ≤ 1e-4 ∧
      |(xyzToRgb (linearRgbToXyz lin)).g - lin.g| ≤ 1e-4 ∧
      |(xyzToRgb (linearRgbToXyz lin)).b - lin.b| ≤ 1e-4 := by
  obtain ⟨⟨hr, hr'⟩, ⟨hg, hg'⟩, hb, hb'⟩ := h
  simp only [xyzToRgb, linearRgbToXyz, abs_le]
  norm_num
  refine ⟨⟨?_, ?_⟩, ⟨?_, ?_⟩, ?_, ?_⟩ <;> linarith

/-- Two linear colours whose components differ by at most `1e-4`. -/
structure LinearRgb.Near (c lin : LinearRgb) : Prop where
  r : |c.r - lin.r| ≤ 1e-4
  g : |c.g - lin.g| ≤ 1e-4
  b : |c.b - lin.b| ≤ 1e-4

theorem xyzToLinearRgb_near {lin : LinearRgb} (h : lin.InCube) :
    (xyzToLinearRgb (linearRgbToXyz lin)).Near lin := by
  obtain ⟨hr, hg, hb⟩ := xyzToRgb_near h
  exact ⟨(abs_clamp01_sub_le h.r.1 h.r.2).trans hr, (abs_clamp01_sub_le h.g.1 h.g.2).trans hg,
    (abs_clamp01_sub_le h.b.1 h.b.2).trans hb⟩

/-- A linear colour that is not black, brought to xy and back: no division is by zero, `bri` is the
luminance and neither function clamps it, `y` is above the fallback, and each component is within
`1e-4`. -/
theorem linear_through_xy {lin : LinearRgb} (h : lin.InCube) (hsum : lin.sum > 1e-9) :
    ∃ xy c, xyOfLinear lin = some xy ∧ xy.bri = (linearRgbToXyz lin).Y ∧
      xyzOfXy xy.x xy.y xy.bri = some (.ok c) ∧ clamp01 xy.bri = xy.bri ∧ xy.y > 1e-6 ∧
      (xyzToLinearRgb c).Near lin := by
  obtain ⟨hY0, hY1⟩ := luminance_mem h
  exact ⟨_, _, xyOfLinear_spec h hsum, rfl, xyzOfXy_xyOfLinear h hsum, clamp01_of_mem hY0 hY1,
    xyOfLinear_y h hsum, xyzToLinearRgb_near h⟩

/-- Blue at half intensity, the component with the smallest luminance. -/
theorem linear_through_xy_blue :
    ∃ xy c, xyOfLinear ⟨0, 0, 1 / 2⟩ = some xy ∧ xy.bri = (linearRgbToXyz ⟨0, 0, 1 / 2⟩).Y ∧
      xyzOfXy xy.x xy.y xy.bri = some (.ok c) ∧ clamp01 xy.bri = xy.bri ∧ xy.y > 1e-6 ∧
      (xyzToLinearRgb c).Near ⟨0, 0, 1 / 2⟩ :=
  linear_through_xy ⟨by norm_num, by norm_num, by norm_num⟩
    (by norm_num [LinearRgb.sum, linearRgbToXyz])

/-- The whole pipeline, whatever the gamma functions are: what is encoded in the end is within
`1e-4` of what was decoded. -/
theorem colorFromXy_colorToXy (srgbToLinear linearToSrgb : ℚ → ℚ) (c : Color)
    (h : (colorToLinear srgbToLinear c).InCube) (hsum : (colorToLinear srgbToLinear c).sum > 1e-9) :
    ∃ xy lin, colorToXy srgbToLinear c = some xy ∧
      colorFromXy linearToSrgb xy.x xy.y xy.bri = some (linearToColor linearToSrgb lin) ∧
      lin.Near (colorToLinear srgbToLinear c) := by
  refine ⟨_, _, xyOfLinear_spec h hsum, ?_, xyzToLinearRgb_near h⟩
  simp only [colorFromXy, xyzOfXy_xyOfLinear h hsum]
  rfl

end Phi.V1
