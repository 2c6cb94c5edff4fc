import Mathlib.Algebra.Order.Floor.Ring
import Mathlib.Data.Int.Log
import Mathlib.Data.Rat.Floor
import FuzzyGates.Proofs.Degree.Value

/-!
# Rounding to the nearest number

A rational number is rounded to a multiple of the last place that a mantissa of 53 bits has at
its magnitude, to the nearest one, and to the even one of two.

* `halfEven` — the nearest whole number.
* `scale`, `mantissa`, `rounded` — the exponent of the last place, the nearest number of last
  places, and what they make together.
* `rounded_neg`, **`rounded_mono`** — rounding respects the sign and the order.
* **`rounded_valueOf`** — what is a number already is not changed.
* `rounded_ne_zero` — of the multiples of the least last place only zero is rounded to zero.
-/

namespace FuzzyGates.Binary64

open Float.Model (UnpackedFloat)

/-! ### The nearest whole number -/

/-- The nearest whole number; of two, the even one. -/
def halfEven (x : ℚ) : ℤ :=
  if 2 * Int.fract x < 1 then ⌊x⌋
  else if 2 * Int.fract x = 1 then ⌊x⌋ + ⌊x⌋ % 2
  else ⌊x⌋ + 1

@[simp] theorem halfEven_intCast (n : ℤ) : halfEven n = n := by
  simp [halfEven]

/-- Rounding moves a number by at most a half. -/
theorem abs_halfEven_sub_le (x : ℚ) : |halfEven x - x| ≤ 1 / 2 := by
  have hx := Int.floor_add_fract x
  have hnonneg := Int.fract_nonneg x
  have hlt := Int.fract_lt_one x
  rw [abs_le]
  unfold halfEven
  split_ifs with hbelow hhalf
  · constructor <;> linarith
  · have hmod : (⌊x⌋ % 2 : ℤ) = 0 ∨ (⌊x⌋ % 2 : ℤ) = 1 := by omega
    push_cast
    rcases hmod with hmod | hmod <;> rw [hmod] <;> constructor <;> push_cast <;> linarith
  · have habove : 1 < 2 * Int.fract x := lt_of_le_of_ne (not_lt.mp hbelow) (Ne.symm hhalf)
    push_cast
    constructor <;> linarith

theorem halfEven_mono {x y : ℚ} (h : x ≤ y) : halfEven x ≤ halfEven y := by
  rcases h.eq_or_lt with rfl | hlt
  · exact le_rfl
  · -- both move by at most a half, so they meet at most
    have hx := (abs_le.mp (abs_halfEven_sub_le x)).2
    have hy := (abs_le.mp (abs_halfEven_sub_le y)).1
    have hcast : ((halfEven x : ℤ) : ℚ) < halfEven y + 1 := by linarith
    exact Int.lt_add_one_iff.mp (by exact_mod_cast hcast)

theorem halfEven_of_lt {x : ℚ} (h : 2 * Int.fract x < 1) : halfEven x = ⌊x⌋ := if_pos h

theorem halfEven_of_eq {x : ℚ} (h : 2 * Int.fract x = 1) : halfEven x = ⌊x⌋ + ⌊x⌋ % 2 := by
  unfold halfEven
  rw [if_neg h.not_lt, if_pos h]

theorem halfEven_of_gt {x : ℚ} (h : 1 < 2 * Int.fract x) : halfEven x = ⌊x⌋ + 1 := by
  unfold halfEven
  rw [if_neg h.not_gt, if_neg h.ne']

/-- Rounding respects the sign: what is above the half on one side is below it on the other. -/
theorem halfEven_neg (x : ℚ) : halfEven (-x) = -halfEven x := by
  by_cases hwhole : Int.fract x = 0
  · obtain ⟨n, rfl⟩ := Int.fract_eq_zero_iff.mp hwhole
    rw [← Int.cast_neg, halfEven_intCast, halfEven_intCast]
  · have hfract : Int.fract (-x) = 1 - Int.fract x := Int.fract_neg hwhole
    have hfloor : ⌊-x⌋ = -⌊x⌋ - 1 := by
      have hx := Int.floor_add_fract x
      have hnegx := Int.floor_add_fract (-x)
      have hcast : (⌊-x⌋ : ℚ) = ((-⌊x⌋ - 1 : ℤ) : ℚ) := by
        push_cast
        linarith
      exact_mod_cast hcast
    rcases lt_trichotomy (2 * Int.fract x) 1 with hbelow | hhalf | habove
    · rw [halfEven_of_lt hbelow, halfEven_of_gt (by linarith), hfloor]
      ring
    · rw [halfEven_of_eq hhalf, halfEven_of_eq (by linarith), hfloor]
      omega
    · rw [halfEven_of_gt habove, halfEven_of_lt (by linarith), hfloor]
      ring

/-! ### The last place -/

/-- The exponent of the last place of a mantissa of 53 bits, not below the least exponent. -/
def scale (q : ℚ) : ℤ := max (Int.log 2 |q| - 52) (-1074)

/-- The nearest number of last places. -/
def mantissa (q : ℚ) : ℤ := halfEven (q / 2 ^ scale q)

/-- The number that is rounded to, were there no greatest exponent. -/
def rounded (q : ℚ) : ℚ := mantissa q * 2 ^ scale q

theorem scale_neg (q : ℚ) : scale (-q) = scale q := by
  unfold scale
  rw [abs_neg]

@[simp] theorem rounded_zero : rounded 0 = 0 := by
  have hzero : halfEven 0 = 0 := by exact_mod_cast halfEven_intCast 0
  unfold rounded mantissa
  rw [zero_div, hzero, Int.cast_zero, zero_mul]

theorem rounded_neg (q : ℚ) : rounded (-q) = -rounded q := by
  unfold rounded mantissa
  rw [scale_neg, neg_div, halfEven_neg]
  push_cast
  ring

theorem scale_mono {p q : ℚ} (hp : 0 < p) (h : p ≤ q) : scale p ≤ scale q := by
  have hq : 0 < q := hp.trans_le h
  have hlog : Int.log 2 |p| ≤ Int.log 2 |q| := by
    rw [abs_of_pos hp, abs_of_pos hq]
    exact Int.log_mono_right hp h
  unfold scale
  omega

/-- A number is less than 53 places above the last one. -/
theorem lt_zpow_scale {q : ℚ} (hq : 0 < q) : q < 2 ^ (scale q + 53) := by
  have hlog : q < 2 ^ (Int.log 2 q + 1) := by
    exact_mod_cast Int.lt_zpow_succ_log_self one_lt_two q
  refine hlog.trans_le (zpow_le_zpow_right₀ one_le_two ?_)
  unfold scale
  rw [abs_of_pos hq]
  omega

/-- If the last place is not the least one, the number reaches 52 places above it. -/
theorem zpow_scale_le {q : ℚ} (hq : 0 < q) (hscale : -1074 < scale q) : 2 ^ (scale q + 52) ≤ q := by
  have hlog : (2 : ℚ) ^ Int.log 2 q ≤ q := by
    exact_mod_cast Int.zpow_log_le_self one_lt_two hq
  refine le_trans (zpow_le_zpow_right₀ one_le_two ?_) hlog
  unfold scale at hscale ⊢
  rw [abs_of_pos hq] at hscale ⊢
  omega

theorem two_pow_mul_zpow (n : ℕ) (e : ℤ) : ((2 ^ n : ℤ) : ℚ) * 2 ^ e = 2 ^ (e + n) := by
  rw [zpow_add₀ two_ne_zero, mul_comm]
  push_cast
  rw [zpow_natCast]

theorem mantissa_le {q : ℚ} {n : ℤ} (h : q ≤ n * 2 ^ scale q) : mantissa q ≤ n := by
  rw [← halfEven_intCast n]
  exact halfEven_mono ((div_le_iff₀ (by positivity)).mpr h)

theorem le_mantissa {q : ℚ} {n : ℤ} (h : n * 2 ^ scale q ≤ q) : n ≤ mantissa q := by
  rw [← halfEven_intCast n]
  exact halfEven_mono ((le_div_iff₀ (by positivity)).mpr h)

/-- The mantissa has 53 bits, unless rounding has carried it into a power of two. -/
theorem mantissa_le_two_pow {q : ℚ} (hq : 0 < q) : mantissa q ≤ 2 ^ 53 := by
  refine mantissa_le ?_
  rw [two_pow_mul_zpow]
  exact (lt_zpow_scale hq).le

/-- All bits of the mantissa are used above the least last place. -/
theorem two_pow_le_mantissa {q : ℚ} (hq : 0 < q) (hscale : -1074 < scale q) :
    2 ^ 52 ≤ mantissa q := by
  refine le_mantissa ?_
  rw [two_pow_mul_zpow]
  exact zpow_scale_le hq hscale

theorem mantissa_nonneg {q : ℚ} (h : 0 ≤ q) : 0 ≤ mantissa q :=
  le_mantissa (by simpa using h)

theorem rounded_nonneg {q : ℚ} (h : 0 ≤ q) : 0 ≤ rounded q := by
  have hmantissa : (0 : ℚ) ≤ mantissa q := by exact_mod_cast mantissa_nonneg h
  unfold rounded
  positivity

theorem rounded_nonpos {q : ℚ} (h : q ≤ 0) : rounded q ≤ 0 := by
  have hneg := rounded_nonneg (neg_nonneg.mpr h)
  rw [rounded_neg] at hneg
  exact neg_nonneg.mp hneg

theorem rounded_mono_of_pos {p q : ℚ} (hp : 0 < p) (h : p ≤ q) : rounded p ≤ rounded q := by
  have hq : 0 < q := hp.trans_le h
  unfold rounded
  rcases (scale_mono hp h).eq_or_lt with hscale | hscale
  · -- with the same last place the mantissas are compared
    have hmantissa : mantissa p ≤ mantissa q := by
      unfold mantissa
      rw [hscale]
      exact halfEven_mono (by gcongr)
    rw [hscale]
    gcongr
  · -- otherwise a power of two lies between the numbers, and rounding does not cross it
    have hleast : -1074 ≤ scale p := le_max_right _ _
    have hupper := mantissa_le_two_pow hp
    have hlower := two_pow_le_mantissa hq (by omega)
    calc (mantissa p : ℚ) * 2 ^ scale p ≤ ((2 ^ 53 : ℤ) : ℚ) * 2 ^ scale p := by gcongr
      _ = 2 ^ (scale p + (53 : ℕ)) := two_pow_mul_zpow 53 _
      _ ≤ 2 ^ (scale q + (52 : ℕ)) := zpow_le_zpow_right₀ one_le_two (by omega)
      _ = ((2 ^ 52 : ℤ) : ℚ) * 2 ^ scale q := (two_pow_mul_zpow 52 _).symm
      _ ≤ mantissa q * 2 ^ scale q := by gcongr

/-- **Rounding respects the order.** -/
theorem rounded_mono {p q : ℚ} (h : p ≤ q) : rounded p ≤ rounded q := by
  rcases lt_or_ge 0 p with hp | hp
  · exact rounded_mono_of_pos hp h
  · rcases lt_or_ge q 0 with hq | hq
    · have hneg := rounded_mono_of_pos (neg_pos.mpr hq) (neg_le_neg h)
      rw [rounded_neg, rounded_neg] at hneg
      exact neg_le_neg_iff.mp hneg
    · exact (rounded_nonpos hp).trans (rounded_nonneg hq)

/-! ### Numbers -/

/-- A multiple of the last place is not changed. -/
theorem rounded_of_scale_le {m e : ℤ} (h : scale (m * 2 ^ e) ≤ e) :
    rounded (m * 2 ^ e) = m * 2 ^ e := by
  obtain ⟨k, hk⟩ := Int.eq_ofNat_of_zero_le (sub_nonneg.mpr h)
  set t := scale (m * 2 ^ e) with ht
  have hsplit : (m : ℚ) * 2 ^ e = ((m * 2 ^ k : ℤ) : ℚ) * 2 ^ t := by
    have he : e = t + k := by omega
    rw [he, ← two_pow_mul_zpow]
    push_cast
    ring
  have hmultiple : (m : ℚ) * 2 ^ e / 2 ^ t = ((m * 2 ^ k : ℤ) : ℚ) := by
    rw [hsplit]
    exact mul_div_cancel_right₀ _ (by positivity)
  unfold rounded mantissa
  rw [← ht, hmultiple, halfEven_intCast]
  exact hsplit.symm

theorem Parts.scale_le {m : ℕ} {e : ℤ} (h : Parts m e) (hm : 0 < m) :
    scale (m * 2 ^ e) ≤ e := by
  have hpos : (0 : ℚ) < m * 2 ^ e := by positivity
  have hlt : (m : ℚ) * 2 ^ e < 2 ^ (e + (53 : ℕ)) := by
    have hm : (m : ℚ) < ((2 ^ 53 : ℤ) : ℚ) := by exact_mod_cast h.lt
    rw [← two_pow_mul_zpow]
    gcongr
  have hlog : Int.log 2 ((m : ℚ) * 2 ^ e) < e + (53 : ℕ) :=
    (Int.lt_zpow_iff_log_lt one_lt_two hpos).mp (by exact_mod_cast hlt)
  have hleast := h.least
  unfold scale
  rw [abs_of_pos hpos]
  omega

/-- **What is a number already is not changed by rounding.** -/
theorem rounded_valueOf {u : UnpackedFloat} (h : Canonical u) (hfinite : u.isFinite = true) :
    rounded (valueOf u) = valueOf u := by
  cases u with
  | infinity s => cases hfinite
  | notANumber => cases hfinite
  | zero s => exact rounded_zero
  | finite s m e hm =>
      have hround : rounded (m * 2 ^ e) = m * 2 ^ e :=
        rounded_of_scale_le (m := m) (h.scale_le hm)
      cases s
      · rw [valueOf_negative, rounded_neg, hround]
      · rw [valueOf_positive, hround]

/-! ### Rounding to zero -/

/-- What reaches the least last place is not rounded to zero. -/
theorem rounded_pos {q : ℚ} (h : 2 ^ (-1074 : ℤ) ≤ q) : 0 < rounded q := by
  have hleast : (0 : ℚ) < 2 ^ (-1074 : ℤ) := by positivity
  have hscale : scale ((1 : ℤ) * 2 ^ (-1074 : ℤ)) ≤ -1074 := by
    have hlog : Int.log 2 ((2 : ℚ) ^ (-1074 : ℤ)) = -1074 := Int.log_zpow one_lt_two _
    unfold scale
    rw [Int.cast_one, one_mul, abs_of_pos hleast]
    omega
  have hround := rounded_of_scale_le hscale
  rw [Int.cast_one, one_mul] at hround
  calc 0 < 2 ^ (-1074 : ℤ) := hleast
    _ = rounded (2 ^ (-1074 : ℤ)) := hround.symm
    _ ≤ rounded q := rounded_mono h

/-- No multiple of the least last place is rounded to zero, except for zero itself. -/
theorem rounded_ne_zero {n e : ℤ} (hn : n ≠ 0) (he : -1074 ≤ e) : rounded (n * 2 ^ e) ≠ 0 := by
  have hpos : (0 : ℚ) < 2 ^ e := by positivity
  have hle : (2 : ℚ) ^ (-1074 : ℤ) ≤ 2 ^ e := zpow_le_zpow_right₀ one_le_two he
  rcases lt_or_gt_of_ne hn with hneg | hgt
  · have hcast : (1 : ℚ) ≤ -n := by exact_mod_cast Int.add_one_le_iff.mpr (neg_pos.mpr hneg)
    have hround := rounded_pos (hle.trans (le_mul_of_one_le_left hpos.le hcast))
    rw [neg_mul, rounded_neg] at hround
    exact (neg_pos.mp hround).ne
  · have hcast : (1 : ℚ) ≤ n := by exact_mod_cast hgt
    exact (rounded_pos (hle.trans (le_mul_of_one_le_left hpos.le hcast))).ne'

end FuzzyGates.Binary64
