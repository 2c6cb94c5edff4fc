import FuzzyGates.Proofs.Degree.Storing

/-!
# Which degrees are the same

A degree is determined by the number that its bits stand for: what is undefined has one bit
pattern only, and no number is stored in two ways.  Two degrees that are numerically equal are
the same bit by bit, with the one exception of the two zeros.

* `pack_unpack` — a bit pattern stores the number that is read from it.
* `eq_of_compare_eq` — numbers that compare as equal are the same, or both are zero.
* **`Degree.parts_injective`** — a degree is determined by its parts.
* `Degree.eq_of_value_eq` — without the negative zero it is determined by its value.
-/

namespace FuzzyGates

open Float.Model (Format UnpackedFloat)
open Float.Model.UnpackedFloat

namespace Binary64

/-! ### Numbers and their bits -/

theorem toBitVec_ofBitVec (s : BitVec 1) : (Sign.ofBitVec s).toBitVec = s := by
  revert s
  decide

/-- A bit pattern is made up of its sign, its exponent and its mantissa. -/
theorem packComponents_unpack (b : BitVec Format.binary64.numBits) :
    packComponents Format.binary64 (Sign.ofBitVec (unpackSign b)) (unpackExponent b)
      (unpackMantissa b) = b := by
  unfold packComponents
  rw [toBitVec_ofBitVec]
  refine BitVec.eq_of_getLsbD_eq fun i hi => ?_
  have hlt : i < 64 := hi
  rw [BitVec.getLsbD_append, BitVec.getLsbD_append]
  simp only [unpackSign, unpackExponent, unpackMantissa, BitVec.getLsbD_cast,
    BitVec.getLsbD_extractLsb]
  split_ifs with hmantissa hexponent
  · rw [decide_eq_true (by omega), Bool.true_and, Nat.zero_add]
  · rw [decide_eq_true (by omega), Bool.true_and]
    congr 1
    omega
  · rw [decide_eq_true (by omega), Bool.true_and]
    congr 1
    omega

/-- **A bit pattern stores the number that is read from it.**  Of the patterns for what is
undefined only one is in use. -/
theorem pack_unpack {b : BitVec Format.binary64.numBits} (h : Format.binary64.Valid b) :
    pack Format.binary64 (unpack Format.binary64 b) = b := by
  have hstored := stored_unpack b
  have hmantissa : (unpackMantissa b).toNat < 2 ^ 52 := (unpackMantissa b).isLt
  have hexponent : (unpackExponent b).toNat < 2 ^ 11 := (unpackExponent b).isLt
  have hbias : Format.binary64.exponentBias = 1023 := rfl
  have hbits : Format.binary64.mantissaBitsWithoutImplicit = 52 := rfl
  conv_rhs => rw [← packComponents_unpack b]
  unfold unpack at hstored ⊢
  dsimp only at hstored ⊢
  by_cases hall : unpackExponent b = -1#_
  · rw [if_pos hall]
    by_cases hinfinite : unpackMantissa b = 0#_
    · rw [if_pos hinfinite, hall, hinfinite]
      rfl
    · rw [if_neg hinfinite, packComponents_unpack]
      exact (h.eq_packedNaN hall hinfinite).symm
  · rw [if_neg hall] at hstored ⊢
    by_cases hzero : unpackExponent b = 0#_
    · rw [if_pos hzero] at hstored ⊢
      by_cases hnone : unpackMantissa b = 0#_
      · rw [dif_pos hnone, hzero, hnone]
        rfl
      · have hleast : ((unpackExponent b).toNat : ℤ) - (Format.binary64.exponentBias +
            Format.binary64.mantissaBitsWithoutImplicit) + 1 = -1074 := by
          rw [hzero]
          rfl
        rw [dif_neg hnone]
        simp only [hleast]
        rw [pack_subnormal _ _ hmantissa, hzero]
        congr 1
        exact BitVec.ofNat_toNat _ _
    · have happend := toNat_one_append (unpackMantissa b)
      rw [if_neg hzero] at hstored ⊢
      rw [pack_normal _ _ hstored (by omega)]
      congr 1
      · have hbiased : ((unpackExponent b).toNat - (Format.binary64.exponentBias +
            Format.binary64.mantissaBitsWithoutImplicit : ℤ) + 1075).toNat =
              (unpackExponent b).toNat := by omega
        rw [hbiased]
        exact BitVec.ofNat_toNat _ _
      · -- the first bit of the mantissa is dropped again
        refine BitVec.eq_of_toNat_eq ?_
        show _ % 2 ^ 52 = _
        omega

/-- Numbers that compare as equal are the same, unless both are zero. -/
theorem eq_of_compare_eq {u v : UnpackedFloat} (h : u.compare v = some .eq) :
    u = v ∨ ∃ s t, u = .zero s ∧ v = .zero t := by
  cases u with
  | notANumber => cases h
  | infinity s =>
      cases v with
      | notANumber => cases h
      | zero | finite => cases s <;> cases h
      | infinity t =>
          left
          cases s <;> cases t
          · rfl
          · cases h
          · cases h
          · rfl
  | zero s =>
      cases v with
      | notANumber => cases h
      | infinity t | finite t => cases t <;> cases h
      | zero t => exact .inr ⟨s, t, rfl, rfl⟩
  | finite s m e hm =>
      cases v with
      | notANumber => cases h
      | infinity t => cases t <;> cases h
      | zero t => cases s <;> cases h
      | finite t n f hn =>
          left
          have hparts : s = t ∧ (compare e f).then (compare m n) = .eq := by
            cases s <;> cases t
            · exact ⟨rfl, Ordering.swap_eq_eq.mp (Option.some.inj h)⟩
            · cases h
            · cases h
            · exact ⟨rfl, Option.some.inj h⟩
          obtain ⟨rfl, hthen⟩ := hparts
          obtain ⟨hexponent, hmantissa⟩ := Ordering.then_eq_eq.mp hthen
          obtain rfl := compare_eq_iff_eq.mp hexponent
          obtain rfl := compare_eq_iff_eq.mp hmantissa
          rfl

end Binary64

namespace Degree

open Binary64

/-! ### Degrees -/

/-- **A degree is determined by its parts.** -/
theorem parts_injective : Function.Injective parts := by
  rintro ⟨⟨b, hb⟩⟩ ⟨⟨c, hc⟩⟩ h
  have hbits : b.toBitVec = c.toBitVec := by
    rw [← pack_unpack hb, ← pack_unpack hc]
    exact congrArg (pack Format.binary64) h
  obtain rfl : b = c := UInt64.toBitVec_inj.mp hbits
  rfl

/-- Degrees with one value are the same, unless one of them is the negative zero. -/
theorem eq_of_value_eq {a b : Degree} (ha : a.Defined) (hb : b.Defined)
    (hza : a.parts ≠ .zero .negative) (hzb : b.parts ≠ .zero .negative)
    (h : a.value = b.value) : a = b := by
  refine parts_injective ?_
  have hcompare : a.parts.compare b.parts = some .eq := by
    rw [compare_parts_of_defined ha hb, compare_eq_iff_eq.mpr h]
  rcases eq_of_compare_eq hcompare with heq | ⟨s, t, hs, ht⟩
  · exact heq
  · cases s with
    | negative => exact absurd hs hza
    | positive =>
        cases t with
        | negative => exact absurd ht hzb
        | positive => rw [hs, ht]

end Degree

end FuzzyGates
