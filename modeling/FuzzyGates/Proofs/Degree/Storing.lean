import Mathlib
import FuzzyGates.Proofs.Degree.Arithmetic

/-!
# Storing what was rounded

The result of an operation is packed into 64 bits.  A number in the form of a stored one is
read back as it is, and one that is too large becomes infinite.  So the order of the exact
results is that of the degrees, at any magnitude.

* `unpack_pack` — what can be stored is read back.
* `clamp`, `valueOf_unpack_pack` — storing changes nothing short of the infinities.
* `Degree.IsNumber` — neither undefined nor infinite.
* `Degree.Nearest` — a degree is what an exact result is rounded to; `nearest_add`,
  `nearest_sub`, `nearest_mul` for the operations on degrees.
* **`Degree.Nearest.le_of_le`** — rounded results are ordered as the exact ones.
-/

namespace FuzzyGates

open Float.Model (Format UnpackedFloat)
open Float.Model.UnpackedFloat

namespace Binary64

/-! ### Storing and reading back -/

theorem unpack_packedInfinity (s : Sign) :
    unpack Format.binary64 (packedInfinity Format.binary64 s) = .infinity s := by
  cases s <;> rfl

/-- With all bits of the mantissa in use, the first of them is not stored. -/
theorem unpack_packComponents_normal (s : Sign) {m : Nat} {e : ℤ} (hm : 0 < m)
    (h : StoredParts m e) (hfull : 2 ^ 52 ≤ m) :
    unpack Format.binary64 (packComponents Format.binary64 s
      (BitVec.ofNat _ (e + 1075).toNat) (BitVec.ofNat _ m)) = .finite s m e hm := by
  have hlt := h.lt
  have hleast := h.least
  have hgreatest := h.greatest
  have hexponent : (BitVec.ofNat Format.binary64.exponentBits (e + 1075).toNat).toNat =
      (e + 1075).toNat := by
    show (e + 1075).toNat % 2 ^ 11 = _
    exact Nat.mod_eq_of_lt (by omega)
  have hmantissa : (BitVec.ofNat Format.binary64.mantissaBitsWithoutImplicit m).toNat =
      m - 2 ^ 52 := by
    show m % 2 ^ 52 = _
    omega
  have hnotall : BitVec.ofNat Format.binary64.exponentBits (e + 1075).toNat ≠ -1#_ := by
    intro heq
    have hnat := congrArg BitVec.toNat heq
    rw [hexponent] at hnat
    have hall : (-BitVec.ofNat Format.binary64.exponentBits 1).toNat = 2047 := rfl
    omega
  have hnonzero : BitVec.ofNat Format.binary64.exponentBits (e + 1075).toNat ≠ 0#_ := by
    intro heq
    have hnat := congrArg BitVec.toNat heq
    rw [hexponent] at hnat
    have hzero : (BitVec.ofNat Format.binary64.exponentBits 0).toNat = 0 := rfl
    omega
  have hbias : Format.binary64.exponentBias = 1023 := rfl
  unfold unpack
  simp only [unpackExponent_packComponents, unpackMantissa_packComponents,
    unpackSign_packComponents, Sign.ofBitVec_toBitVec]
  rw [if_neg hnotall, if_neg hnonzero]
  congr 1
  · rw [toNat_one_append, hmantissa]
    omega
  · rw [hexponent]
    omega

/-- Over the least exponent all bits of a shorter mantissa are stored. -/
theorem unpack_packComponents_subnormal (s : Sign) {m : Nat} (hm : 0 < m) (hlt : m < 2 ^ 52) :
    unpack Format.binary64 (packComponents Format.binary64 s 0#_ (BitVec.ofNat _ m)) =
      .finite s m (-1074) hm := by
  have hmantissa : (BitVec.ofNat Format.binary64.mantissaBitsWithoutImplicit m).toNat = m := by
    show m % 2 ^ 52 = _
    exact Nat.mod_eq_of_lt hlt
  have hnonzero : BitVec.ofNat Format.binary64.mantissaBitsWithoutImplicit m ≠ 0#_ := by
    intro heq
    have hnat := congrArg BitVec.toNat heq
    rw [hmantissa] at hnat
    exact hm.ne' hnat
  have hnotall : BitVec.ofNat Format.binary64.exponentBits 0 ≠ -1#_ := by decide
  unfold unpack
  simp only [unpackExponent_packComponents, unpackMantissa_packComponents,
    unpackSign_packComponents, Sign.ofBitVec_toBitVec]
  rw [if_neg hnotall, if_pos trivial, dif_neg hnonzero]
  congr 1

/-- The exponent as it is stored. -/
theorem biased_eq (e : ℤ) : (e + Format.binary64.exponentBias +
    Format.binary64.mantissaBitsWithoutImplicit).toNat = (e + 1075).toNat := by
  show (e + (1023 : Nat) + (52 : Nat)).toNat = _
  omega

/-- How a number is stored that uses all bits of the mantissa. -/
theorem pack_normal (s : Sign) {m : Nat} {e : ℤ} (hm : 0 < m) (h : StoredParts m e)
    (hfull : 2 ^ 52 ≤ m) : pack Format.binary64 (.finite s m e hm) =
      packComponents Format.binary64 s (BitVec.ofNat _ (e + 1075).toNat) (BitVec.ofNat _ m) := by
  have hleast := h.least
  have hgreatest := h.greatest
  have hfits : ¬ 2 ^ Format.binary64.exponentBits ≤ (e + 1075).toNat + 1 := by
    show ¬ 2 ^ 11 ≤ (e + 1075).toNat + 1
    omega
  have hlog : m.log2 + 1 = Format.binary64.mantissaBits := by
    have hlower := (Nat.le_log2 hm.ne').mpr hfull
    have hupper := (Nat.log2_lt hm.ne').mpr h.lt
    show m.log2 + 1 = 1 + 52
    omega
  unfold pack
  dsimp only
  rw [biased_eq, if_neg hfits, if_pos hlog]

/-- How a number is stored that leaves the first bit of the mantissa unused. -/
theorem pack_subnormal (s : Sign) {m : Nat} (hm : 0 < m) (hlt : m < 2 ^ 52) :
    pack Format.binary64 (.finite s m (-1074) hm) =
      packComponents Format.binary64 s 0#_ (BitVec.ofNat _ m) := by
  have hfits : ¬ 2 ^ Format.binary64.exponentBits ≤ ((-1074 : ℤ) + 1075).toNat + 1 := by decide
  have hlog : ¬ m.log2 + 1 = Format.binary64.mantissaBits := by
    have hupper := (Nat.log2_lt hm.ne').mpr hlt
    show ¬ m.log2 + 1 = 1 + 52
    omega
  unfold pack
  dsimp only
  rw [biased_eq, if_neg hfits, if_neg hlog]

/-- **What can be stored is read back.** -/
theorem unpack_pack {u : UnpackedFloat} (h : Stored u) :
    unpack Format.binary64 (pack Format.binary64 u) = u := by
  cases u with
  | notANumber => rfl
  | infinity s => exact unpack_packedInfinity s
  | zero s => cases s <;> rfl
  | finite s m e hm =>
      by_cases hfull : 2 ^ 52 ≤ m
      · rw [pack_normal s hm h hfull]
        exact unpack_packComponents_normal s hm h hfull
      · obtain rfl : e = -1074 := h.full.resolve_left hfull
        rw [pack_subnormal s hm (not_le.mp hfull)]
        exact unpack_packComponents_subnormal s hm (not_le.mp hfull)

/-- A number whose exponent is too large becomes infinite. -/
theorem unpack_pack_of_lt (s : Sign) {m : Nat} {e : ℤ} (hm : 0 < m) (h : 971 < e) :
    unpack Format.binary64 (pack Format.binary64 (.finite s m e hm)) = .infinity s := by
  have hlarge : 2 ^ Format.binary64.exponentBits ≤ (e + 1075).toNat + 1 := by
    show 2 ^ 11 ≤ (e + 1075).toNat + 1
    omega
  unfold pack
  dsimp only
  rw [biased_eq, if_pos hlarge]
  exact unpack_packedInfinity s

/-- What is beyond all finite numbers becomes infinite. -/
def clamp (q : ℚ) : ℚ := max (-beyond) (min beyond q)

theorem clamp_mono {p q : ℚ} (h : p ≤ q) : clamp p ≤ clamp q :=
  max_le_max_left _ (min_le_min_left _ h)

theorem clamp_of_abs_lt {q : ℚ} (h : |q| < beyond) : clamp q = q := by
  obtain ⟨hlower, hupper⟩ := abs_lt.mp h
  unfold clamp
  rw [min_eq_right hupper.le, max_eq_right hlower.le]

theorem clamp_of_le {q : ℚ} (h : beyond ≤ q) : clamp q = beyond := by
  have hbeyond := beyond_pos
  unfold clamp
  rw [min_eq_left h, max_eq_right (by linarith)]

theorem clamp_neg (q : ℚ) : clamp (-q) = -clamp q := by
  have hbeyond := beyond_pos
  unfold clamp
  rcases le_total q beyond with hupper | hupper <;> rcases le_total (-beyond) q with hlower | hlower
  · rw [min_eq_right (by linarith), min_eq_right hupper, max_eq_right (by linarith),
      max_eq_right hlower]
  · rw [min_eq_left (by linarith), min_eq_right hupper, max_eq_right (by linarith),
      max_eq_left hlower, neg_neg]
  · rw [min_eq_right (by linarith), min_eq_left hupper, max_eq_left (by linarith),
      max_eq_right (by linarith)]
  · linarith

/-- **Storing a number keeps what it stands for**, up to the infinities. -/
theorem valueOf_unpack_pack {u : UnpackedFloat} (h : Canonical u) (hfinite : u.isFinite = true) :
    valueOf (unpack Format.binary64 (pack Format.binary64 u)) = clamp (valueOf u) ∧
      unpack Format.binary64 (pack Format.binary64 u) ≠ .notANumber := by
  by_cases hstored : Stored u
  · rw [unpack_pack hstored, clamp_of_abs_lt (abs_valueOf_lt_beyond hstored hfinite)]
    refine ⟨rfl, ?_⟩
    rintro rfl
    cases hfinite
  · cases u with
    | infinity s => cases hfinite
    | notANumber => cases hfinite
    | zero s => exact absurd trivial hstored
    | finite s m e hm =>
        have hlarge : 971 < e := not_le.mp fun hle => hstored ⟨h, hle⟩
        have hfull : 2 ^ 52 ≤ m := h.full.resolve_right (by omega)
        have hbeyond : beyond ≤ (m : ℚ) * 2 ^ e := by
          have hcast : ((2 ^ 52 : ℤ) : ℚ) ≤ m := by exact_mod_cast hfull
          calc beyond ≤ 2 ^ (e + (52 : ℕ)) := zpow_le_zpow_right₀ one_le_two (by omega)
            _ = ((2 ^ 52 : ℤ) : ℚ) * 2 ^ e := (two_pow_mul_zpow 52 e).symm
            _ ≤ m * 2 ^ e := by gcongr
        rw [unpack_pack_of_lt s hm hlarge]
        refine ⟨?_, by simp⟩
        cases s
        · rw [valueOf_negInfinity, valueOf_negative, clamp_neg, clamp_of_le hbeyond]
        · rw [valueOf_posInfinity, valueOf_positive, clamp_of_le hbeyond]

end Binary64

namespace Degree

open Binary64

/-! ### Sums, differences and products of degrees -/

/-- The degree is a number, neither undefined nor infinite. -/
def IsNumber (x : Degree) : Prop := x.parts.isFinite = true

theorem IsNumber.defined {x : Degree} (h : IsNumber x) : Defined x := by
  intro hx
  unfold IsNumber at h
  rw [hx] at h
  cases h

/-- What is defined and not beyond all numbers is a number. -/
theorem isNumber_of_abs_lt {x : Degree} (hdefined : Defined x) (h : |x.value| < beyond) :
    IsNumber x := by
  have hbeyond := beyond_pos
  unfold value at h
  unfold Defined at hdefined
  unfold IsNumber
  cases hx : x.parts with
  | notANumber => exact absurd hx hdefined
  | zero | finite => rfl
  | infinity s =>
      rw [hx] at h
      cases s
      · rw [valueOf_negInfinity, abs_neg, abs_of_pos hbeyond] at h
        exact absurd h (lt_irrefl _)
      · rw [valueOf_posInfinity, abs_of_pos hbeyond] at h
        exact absurd h (lt_irrefl _)

/-- The degree is what an exact result is rounded to, or infinite where that is too large. -/
structure Nearest (x : Degree) (q : ℚ) : Prop where
  defined : Defined x
  value_eq : x.value = clamp (rounded q)

theorem nearest_of_roundsTo {x : Degree} {u : UnpackedFloat} {q : ℚ}
    (hx : x.parts = unpack Format.binary64 (pack Format.binary64 u)) (h : RoundsTo u q) :
    Nearest x q := by
  obtain ⟨hvalue, hdefined⟩ := valueOf_unpack_pack h.canonical h.finite
  rw [← hx, h.value] at hvalue
  exact ⟨by rwa [Defined, hx], hvalue⟩

variable {a b : Degree}

theorem nearest_add (ha : IsNumber a) (hb : IsNumber b) : Nearest (a + b) (a.value + b.value) :=
  nearest_of_roundsTo rfl (roundsTo_add a.canonical_parts b.canonical_parts ha hb)

theorem nearest_sub (ha : IsNumber a) (hb : IsNumber b) : Nearest (a - b) (a.value - b.value) :=
  nearest_of_roundsTo rfl (roundsTo_sub a.canonical_parts b.canonical_parts ha hb)

theorem nearest_mul (ha : IsNumber a) (hb : IsNumber b) : Nearest (a * b) (a.value * b.value) :=
  nearest_of_roundsTo rfl (roundsTo_mul a.canonical_parts b.canonical_parts ha hb)

/-- A number is rounded to itself. -/
theorem IsNumber.nearest (h : IsNumber a) : Nearest a a.value where
  defined := h.defined
  value_eq := by
    have hround : rounded a.value = a.value := rounded_valueOf a.canonical_parts h
    rw [hround]
    exact (clamp_of_abs_lt (abs_valueOf_lt_beyond a.stored_parts h)).symm

/-- **Rounded results are ordered as the exact ones.** -/
theorem Nearest.le_of_le {p q : ℚ} (ha : Nearest a p) (hb : Nearest b q) (h : p ≤ q) : a ≤ b := by
  refine le_iff.mpr ⟨⟨ha.defined, hb.defined⟩, ?_⟩
  rw [ha.value_eq, hb.value_eq]
  exact clamp_mono (rounded_mono h)

end Degree

end FuzzyGates
