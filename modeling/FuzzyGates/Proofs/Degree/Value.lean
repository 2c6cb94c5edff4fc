import Mathlib.Algebra.Order.Field.Rat
import Mathlib.Algebra.Order.Field.Power
import Mathlib.Order.Compare
import Mathlib.Tactic.Linarith
import Mathlib.Tactic.Positivity
import Mathlib.Tactic.Ring
import FuzzyGates.Degree

/-!
# The numbers that degrees stand for

A degree is stored in 64 bits: a sign, a mantissa of 53 bits and an exponent, of which the
first bit of the mantissa is left out unless the exponent is the least.  So a finite number
has one form only, and comparing forms is comparing rational numbers.

* `Parts`, `StoredParts`, `Canonical`, `Stored` — the form of a number, and of one that fits.
* `valueOf`, `Degree.value` — the rational number; the infinities stand beyond all others.
* **`compare_eq_compare_valueOf`** — the order of forms is that of the numbers.
* `stored_unpack` — every bit pattern is read in that form.
* **`Degree.le_iff`**, `Degree.lt_iff` — the order of degrees.
-/

namespace FuzzyGates

open Float.Model (Format UnpackedFloat)
open Float.Model.UnpackedFloat (Sign)

namespace Binary64

/-! ### Mantissas and exponents -/

/-- A mantissa of at most 53 bits, of which all are used unless the exponent is the least. -/
structure Parts (m : Nat) (e : Int) : Prop where
  lt : m < 2 ^ 53
  least : -1074 ≤ e
  full : 2 ^ 52 ≤ m ∨ e = -1074

/-- The exponents decide before the mantissas do. -/
theorem Parts.mul_zpow_lt {m n : Nat} {e f : Int} (hm : Parts m e) (hn : Parts n f) (h : e < f) :
    (m : ℚ) * 2 ^ e < n * 2 ^ f := by
  have hfull : 2 ^ 52 ≤ n := hn.full.resolve_right (by have := hm.least; omega)
  calc (m : ℚ) * 2 ^ e < 2 ^ 53 * 2 ^ e := by
        have hlt : (m : ℚ) < 2 ^ 53 := by exact_mod_cast hm.lt
        gcongr
    _ = 2 ^ 52 * 2 ^ (e + 1) := by
        rw [zpow_add_one₀ two_ne_zero]
        ring
    _ ≤ n * 2 ^ f := by
        have hle : (2 : ℚ) ^ 52 ≤ n := by exact_mod_cast hfull
        gcongr
        · norm_num
        · omega

/-- Comparing exponents and then mantissas is comparing the numbers. -/
theorem Parts.compare_eq {m n : Nat} {e f : Int} (hm : Parts m e) (hn : Parts n f) :
    (compare e f).then (compare m n) = compare ((m : ℚ) * 2 ^ e) (n * 2 ^ f) := by
  rcases lt_trichotomy e f with h | rfl | h
  · rw [compare_lt_iff_lt.mpr h, compare_lt_iff_lt.mpr (hm.mul_zpow_lt hn h)]
    rfl
  · have hpos : (0 : ℚ) < 2 ^ e := by positivity
    have hmono : StrictMono fun n : Nat => (n : ℚ) * 2 ^ e := fun m n hlt => by
      have hcast : (m : ℚ) < n := by exact_mod_cast hlt
      exact mul_lt_mul_of_pos_right hcast hpos
    rw [compare_eq_iff_eq.mpr rfl, ← cmp_eq_compare, ← cmp_eq_compare]
    exact (hmono.cmp_map_eq m n).symm
  · rw [compare_gt_iff_gt.mpr h, compare_gt_iff_gt.mpr (hn.mul_zpow_lt hm h)]
    rfl

/-- The mantissa and the exponent of a number that can be stored. -/
structure StoredParts (m : Nat) (e : Int) : Prop extends Parts m e where
  greatest : e ≤ 971

/-- A power of two beyond all finite numbers. -/
def beyond : ℚ := 2 ^ (1024 : Int)

theorem beyond_pos : 0 < beyond := by
  unfold beyond
  positivity

theorem one_lt_beyond : 1 < beyond := one_lt_zpow₀ one_lt_two (by decide)

theorem StoredParts.lt_beyond {m : Nat} {e : Int} (h : StoredParts m e) :
    (m : ℚ) * 2 ^ e < beyond := by
  have hlt : (m : ℚ) < 2 ^ 53 := by exact_mod_cast h.lt
  calc (m : ℚ) * 2 ^ e < 2 ^ 53 * 2 ^ e := by gcongr
    _ = 2 ^ (e + 53) := by
        rw [zpow_add₀ two_ne_zero, mul_comm]
        norm_num
    _ ≤ beyond := by
        refine zpow_le_zpow_right₀ one_le_two ?_
        have hgreatest := h.greatest
        omega

/-! ### Numbers -/

/-- The number has the exponent that its mantissa calls for, though it may be too large. -/
def Canonical : UnpackedFloat → Prop
  | .finite _ m e _ => Parts m e
  | _ => True

/-- The number can be stored as it is. -/
def Stored : UnpackedFloat → Prop
  | .finite _ m e _ => StoredParts m e
  | _ => True

theorem Stored.canonical {u : UnpackedFloat} (h : Stored u) : Canonical u := by
  cases u with
  | finite s m e hm => exact h.toParts
  | infinity | notANumber | zero => trivial

/-- The rational number that a number stands for.  The infinities stand just beyond all others,
and what is undefined stands for nothing. -/
def valueOf : UnpackedFloat → ℚ
  | .infinity s => (s.apply 1 : Int) * beyond
  | .notANumber => 0
  | .zero _ => 0
  | .finite s m e _ => (s.apply m : Int) * 2 ^ e

theorem valueOf_positive (m : Nat) (e : Int) (h : 0 < m) :
    valueOf (.finite .positive m e h) = m * 2 ^ e := rfl

theorem valueOf_negative (m : Nat) (e : Int) (h : 0 < m) :
    valueOf (.finite .negative m e h) = -(m * 2 ^ e) := by
  show ((-(m : Int) : Int) : ℚ) * 2 ^ e = _
  push_cast
  ring

theorem valueOf_posInfinity : valueOf (.infinity .positive) = beyond := by
  show ((1 : Int) : ℚ) * beyond = _
  push_cast
  ring

theorem valueOf_negInfinity : valueOf (.infinity .negative) = -beyond := by
  show ((-1 : Int) : ℚ) * beyond = _
  push_cast
  ring

theorem abs_valueOf_finite (s : Sign) {m : Nat} (e : Int) (h : 0 < m) :
    |valueOf (.finite s m e h)| = m * 2 ^ e := by
  have hpos : (0 : ℚ) ≤ m * 2 ^ e := by positivity
  cases s
  · rw [valueOf_negative, abs_neg, abs_of_nonneg hpos]
  · rw [valueOf_positive, abs_of_nonneg hpos]

theorem compare_finite {s t : Sign} {m n : Nat} {e f : Int} {hm : 0 < m} {hn : 0 < n}
    (ha : Parts m e) (hb : Parts n f) :
    UnpackedFloat.compare (.finite s m e hm) (.finite t n f hn) =
      some (compare (valueOf (.finite s m e hm)) (valueOf (.finite t n f hn))) := by
  have hposm : (0 : ℚ) < m * 2 ^ e := by positivity
  have hposn : (0 : ℚ) < n * 2 ^ f := by positivity
  cases s with
  | positive =>
      cases t with
      | positive => exact congrArg some (ha.compare_eq hb)
      | negative =>
          rw [valueOf_positive, valueOf_negative]
          exact congrArg some (compare_gt_iff_gt.mpr (by linarith)).symm
  | negative =>
      cases t with
      | positive =>
          rw [valueOf_positive, valueOf_negative]
          exact congrArg some (compare_lt_iff_lt.mpr (by linarith)).symm
      | negative =>
          -- the greater of two negative numbers has the smaller mantissa and exponent
          have hneg : StrictAnti fun x : ℚ => -x := fun _ _ hlt => neg_lt_neg hlt
          rw [valueOf_negative, valueOf_negative]
          refine congrArg some ?_
          rw [ha.compare_eq hb, ← cmp_eq_compare, ← cmp_eq_compare, cmp_swap]
          exact (hneg.cmp_map_eq _ _).symm

theorem abs_valueOf_lt_beyond {a : UnpackedFloat} (ha : Stored a) (hfinite : a.isFinite = true) :
    |valueOf a| < beyond := by
  cases a with
  | infinity s => cases hfinite
  | notANumber => cases hfinite
  | zero s =>
      show |(0 : ℚ)| < beyond
      rw [abs_zero]
      exact beyond_pos
  | finite s m e hm =>
      rw [abs_valueOf_finite]
      exact ha.lt_beyond

theorem compare_of_isFinite {a b : UnpackedFloat} (ha : Stored a) (hb : Stored b)
    (hfa : a.isFinite = true) (hfb : b.isFinite = true) :
    a.compare b = some (compare (valueOf a) (valueOf b)) := by
  cases a with
  | infinity s => cases hfa
  | notANumber => cases hfa
  | zero s =>
      cases b with
      | infinity t => cases hfb
      | notANumber => cases hfb
      | zero t => exact congrArg some (compare_eq_iff_eq.mpr rfl).symm
      | finite t n f hn =>
          have hpos : (0 : ℚ) < n * 2 ^ f := by positivity
          cases t
          · rw [valueOf_negative]
            exact congrArg some (compare_gt_iff_gt.mpr (neg_lt_zero.mpr hpos)).symm
          · exact congrArg some (compare_lt_iff_lt.mpr hpos).symm
  | finite s m e hm =>
      cases b with
      | infinity t => cases hfb
      | notANumber => cases hfb
      | zero t =>
          have hpos : (0 : ℚ) < m * 2 ^ e := by positivity
          cases s
          · rw [valueOf_negative]
            exact congrArg some (compare_lt_iff_lt.mpr (neg_lt_zero.mpr hpos)).symm
          · exact congrArg some (compare_gt_iff_gt.mpr hpos).symm
      | finite t n f hn => exact compare_finite ha.toParts hb.toParts

/-- The order of a finite number and an infinity, which the sign of the infinity decides. -/
theorem compare_infinity {a : UnpackedFloat} (h : a.isFinite = true) :
    a.compare (.infinity .positive) = some .lt ∧ a.compare (.infinity .negative) = some .gt ∧
      UnpackedFloat.compare (.infinity .positive) a = some .gt ∧
      UnpackedFloat.compare (.infinity .negative) a = some .lt := by
  cases a with
  | infinity s => cases h
  | notANumber => cases h
  | zero s => exact ⟨rfl, rfl, rfl, rfl⟩
  | finite s m e hm => exact ⟨rfl, rfl, rfl, rfl⟩

/-- **Numbers compare as what they stand for.** -/
theorem compare_eq_compare_valueOf {a b : UnpackedFloat} (ha : Stored a) (hb : Stored b)
    (hna : a ≠ .notANumber) (hnb : b ≠ .notANumber) :
    a.compare b = some (compare (valueOf a) (valueOf b)) := by
  have hbeyond := beyond_pos
  have hlt : ∀ {x y : ℚ}, x < y → some Ordering.lt = some (compare x y) :=
    fun h => congrArg some (compare_lt_iff_lt.mpr h).symm
  have hgt : ∀ {x y : ℚ}, y < x → some Ordering.gt = some (compare x y) :=
    fun h => congrArg some (compare_gt_iff_gt.mpr h).symm
  have hkind : ∀ a : UnpackedFloat, a ≠ .notANumber → a.isFinite = true ∨ ∃ s, a = .infinity s := by
    intro a h
    cases a with
    | notANumber => exact absurd rfl h
    | infinity s => exact .inr ⟨s, rfl⟩
    | zero | finite => exact .inl rfl
  rcases hkind a hna with hfa | ⟨s, rfl⟩ <;> rcases hkind b hnb with hfb | ⟨t, rfl⟩
  · exact compare_of_isFinite ha hb hfa hfb
  · -- an infinity is beyond every finite number
    obtain ⟨hlower, hupper⟩ := abs_lt.mp (abs_valueOf_lt_beyond ha hfa)
    obtain ⟨hpositive, hnegative, -, -⟩ := compare_infinity hfa
    cases t
    · rw [valueOf_negInfinity]
      exact hnegative.trans (hgt hlower)
    · rw [valueOf_posInfinity]
      exact hpositive.trans (hlt hupper)
  · obtain ⟨hlower, hupper⟩ := abs_lt.mp (abs_valueOf_lt_beyond hb hfb)
    obtain ⟨-, -, hpositive, hnegative⟩ := compare_infinity hfb
    cases s
    · rw [valueOf_negInfinity]
      exact hnegative.trans (hlt hlower)
    · rw [valueOf_posInfinity]
      exact hpositive.trans (hgt hupper)
  · cases s <;> cases t <;> simp only [valueOf_posInfinity, valueOf_negInfinity]
    · exact congrArg some (compare_eq_iff_eq.mpr rfl).symm
    · exact hlt (by linarith)
    · exact hgt (by linarith)
    · exact congrArg some (compare_eq_iff_eq.mpr rfl).symm

/-! ### What is stored -/

/-- The first bit of a mantissa, which is not stored. -/
theorem toNat_one_append (b : BitVec 52) : (1#1 ++ b).toNat = 2 ^ 52 + b.toNat := by
  rw [BitVec.toNat_append, ← Nat.shiftLeft_add_eq_or_of_lt b.isLt]
  rfl

/-- **Every bit pattern stores a number in its canonical form.** -/
theorem stored_unpack (b : BitVec Format.binary64.numBits) :
    Stored (UnpackedFloat.unpack Format.binary64 b) := by
  have hmantissa : (UnpackedFloat.unpackMantissa b).toNat < 2 ^ 52 :=
    (UnpackedFloat.unpackMantissa b).isLt
  have hexponent : (UnpackedFloat.unpackExponent b).toNat < 2 ^ 11 :=
    (UnpackedFloat.unpackExponent b).isLt
  have hbias : Format.binary64.exponentBias = 1023 := rfl
  unfold UnpackedFloat.unpack
  dsimp only
  by_cases hall : UnpackedFloat.unpackExponent b = -1#_
  · rw [if_pos hall]
    by_cases hinfinite : UnpackedFloat.unpackMantissa b = 0#_
    · rw [if_pos hinfinite]
      trivial
    · rw [if_neg hinfinite]
      trivial
  · rw [if_neg hall]
    -- an exponent of ones only is left to the infinities and to what is undefined
    have hle : (UnpackedFloat.unpackExponent b).toNat ≠ 2047 :=
      fun h => hall (BitVec.eq_of_toNat_eq h)
    by_cases hzero : UnpackedFloat.unpackExponent b = 0#_
    · have hexp : (UnpackedFloat.unpackExponent b).toNat = 0 := by
        rw [hzero]
        rfl
      rw [if_pos hzero]
      by_cases hnone : UnpackedFloat.unpackMantissa b = 0#_
      · rw [dif_pos hnone]
        trivial
      · rw [dif_neg hnone]
        exact ⟨⟨by omega, by omega, .inr (by omega)⟩, by omega⟩
    · have hpos : (UnpackedFloat.unpackExponent b).toNat ≠ 0 :=
        fun h => hzero (BitVec.eq_of_toNat_eq h)
      have happend := toNat_one_append (UnpackedFloat.unpackMantissa b)
      rw [if_neg hzero]
      exact ⟨⟨by omega, by omega, .inl (by omega)⟩, by omega⟩

theorem compare_notANumber_right (a : UnpackedFloat) : a.compare .notANumber = none := by
  rcases a with _ | _ | _ | _ <;> rfl

end Binary64

namespace Degree

open Binary64

/-! ### Degrees -/

/-- The number of a degree in its parts. -/
def parts (x : Degree) : UnpackedFloat := x.toModel.unpack

/-- The rational number that a degree stands for. -/
def value (x : Degree) : ℚ := valueOf x.parts

/-- The degree is a number or infinite. -/
def Defined (x : Degree) : Prop := x.parts ≠ .notANumber

theorem stored_parts (x : Degree) : Stored x.parts := stored_unpack _

theorem canonical_parts (x : Degree) : Canonical x.parts := x.stored_parts.canonical

theorem compare_parts_of_defined {a b : Degree} (ha : Defined a) (hb : Defined b) :
    a.parts.compare b.parts = some (compare a.value b.value) :=
  compare_eq_compare_valueOf a.stored_parts b.stored_parts ha hb

theorem compare_parts_of_not_defined {a b : Degree} (h : ¬(Defined a ∧ Defined b)) :
    a.parts.compare b.parts = none := by
  by_cases ha : Defined a
  · have hb : b.parts = .notANumber := by
      by_contra hb
      exact h ⟨ha, hb⟩
    rw [hb]
    exact compare_notANumber_right _
  · have ha' : a.parts = .notANumber := not_not.mp ha
    rw [ha']
    rfl

/-- **The order of degrees is that of the numbers**; what is undefined has no order. -/
theorem le_iff {a b : Degree} : a ≤ b ↔ (Defined a ∧ Defined b) ∧ a.value ≤ b.value := by
  have hle : a ≤ b ↔ (a.parts.compare b.parts).any (·.isLE) = true := by
    show decide (a.toModel ≤ b.toModel) = true ↔ _
    exact decide_eq_true_iff
  rw [hle]
  by_cases h : Defined a ∧ Defined b
  · rw [compare_parts_of_defined h.1 h.2]
    simp [h, Ordering.isLE_iff_ne_gt, compare_gt_iff_gt]
  · rw [compare_parts_of_not_defined h]
    simp [h]

theorem lt_iff {a b : Degree} : a < b ↔ (Defined a ∧ Defined b) ∧ a.value < b.value := by
  have hlt : a < b ↔ (a.parts.compare b.parts == some .lt) = true := by
    show decide (a.toModel < b.toModel) = true ↔ _
    exact decide_eq_true_iff
  rw [hlt]
  by_cases h : Defined a ∧ Defined b
  · rw [compare_parts_of_defined h.1 h.2]
    simp [h, compare_lt_iff_lt]
  · rw [compare_parts_of_not_defined h]
    simp [h]

theorem value_le_of_not_lt {a b : Degree} (ha : Defined a) (hb : Defined b) (h : ¬ b < a) :
    a.value ≤ b.value :=
  not_lt.mp fun hlt => h (lt_iff.mpr ⟨⟨hb, ha⟩, hlt⟩)

end Degree

end FuzzyGates
