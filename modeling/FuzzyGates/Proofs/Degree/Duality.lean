import FuzzyGates.Proofs.Degree.Identity
import FuzzyGates.Proofs.Degree.UnitInterval

/-!
# The complement turns meets into joins

The complement reverses the order of degrees, of numbers and infinite ones alike, and what is
undefined stays so.  Rounding may make a tie of the complements of different degrees, but no
complement is the negative zero, so that tied complements are the same bit by bit.  Hence it does
not matter which of two degrees a meet or a join keeps, and De Morgan's laws hold of all bits.

* `sub_ne_zero_negative` — which differences are the negative zero.
* `defined_complement_iff`, `parts_complement_ne` — what a complement can be.
* `value_complement_le` — the complement reverses the order.
* **`complement_meet`**, **`complement_join`** — De Morgan's laws, without exception.
-/

namespace FuzzyGates

open Float.Model (Format UnpackedFloat)
open Float.Model.UnpackedFloat

namespace Binary64

/-! ### Differences that are zero -/

/-- A difference of different numbers is not rounded to zero, and that of equal ones is the
positive zero. -/
theorem normalize_ne_zero_negative (n : ℤ) {e : ℤ} (he : -1074 ≤ e) :
    UnpackedFloat.normalize Format.binary64 n e .positive ≠ .zero .negative := by
  intro hzero
  by_cases hn : n = 0
  · subst hn
    cases hzero
  · have hvalue := (roundsTo_normalize n e .positive).value
    rw [hzero] at hvalue
    exact rounded_ne_zero hn he hvalue.symm

/-- A difference is the negative zero only if what is subtracted from is. -/
theorem sub_ne_zero_negative {u v : UnpackedFloat} (hu : Canonical u) (hv : Canonical v)
    (hne : u ≠ .zero .negative) :
    Canonical (UnpackedFloat.sub Format.binary64 u v) ∧
      UnpackedFloat.sub Format.binary64 u v ≠ .zero .negative := by
  cases u with
  | notANumber => exact ⟨trivial, nofun⟩
  | infinity s =>
      cases v with
      | infinity t => cases s <;> cases t <;> exact ⟨trivial, nofun⟩
      | notANumber | zero | finite => exact ⟨trivial, nofun⟩
  | zero s =>
      cases s with
      | negative => exact absurd rfl hne
      | positive =>
          cases v with
          | notANumber | infinity => exact ⟨trivial, nofun⟩
          | zero t => cases t <;> exact ⟨trivial, nofun⟩
          | finite t n f hn => exact ⟨hv, nofun⟩
  | finite s m e hm =>
      cases v with
      | notANumber | infinity => exact ⟨trivial, nofun⟩
      | zero t => exact ⟨hu, nofun⟩
      | finite t n f hn =>
          exact ⟨(roundsTo_normalize _ _ _).canonical,
            normalize_ne_zero_negative _ (le_min hu.least hv.least)⟩

theorem unpack_pack_ne_zero_negative {u : UnpackedFloat} (h : Canonical u)
    (hne : u ≠ .zero .negative) :
    unpack Format.binary64 (pack Format.binary64 u) ≠ .zero .negative := by
  by_cases hstored : Stored u
  · rwa [unpack_pack hstored]
  · cases u with
    | infinity | notANumber | zero => exact absurd trivial hstored
    | finite s m e hm =>
        have hlarge : 971 < e := not_le.mp fun hle => hstored ⟨h, hle⟩
        rw [unpack_pack_of_lt s hm hlarge]
        nofun

end Binary64

namespace Degree

open Binary64

variable {a b : Degree}

/-! ### Numbers and infinite degrees -/

theorem Defined.isNumber_or_infinite (h : a.Defined) :
    a.IsNumber ∨ ∃ s, a.parts = .infinity s := by
  unfold IsNumber
  cases hparts : a.parts with
  | notANumber => exact absurd hparts h
  | infinity s => exact .inr ⟨s, rfl⟩
  | zero | finite => exact .inl rfl

theorem value_of_infinite {s : Sign} (h : a.parts = .infinity s) :
    a.value = valueOf (.infinity s) :=
  congrArg valueOf h

theorem IsNumber.abs_value_lt (h : a.IsNumber) : |a.value| < beyond :=
  abs_valueOf_lt_beyond a.stored_parts h

theorem Defined.value_lt (h : a.Defined) (hne : a.parts ≠ .infinity .positive) :
    a.value < beyond := by
  rcases h.isNumber_or_infinite with hnumber | ⟨s, hs⟩
  · exact (abs_lt.mp hnumber.abs_value_lt).2
  · cases s with
    | negative =>
        rw [value_of_infinite hs, valueOf_negInfinity]
        exact neg_lt_self beyond_pos
    | positive => exact absurd hs hne

theorem Defined.lt_value (h : a.Defined) (hne : a.parts ≠ .infinity .negative) :
    -beyond < a.value := by
  rcases h.isNumber_or_infinite with hnumber | ⟨s, hs⟩
  · exact (abs_lt.mp hnumber.abs_value_lt).1
  · cases s with
    | negative => exact absurd hs hne
    | positive =>
        rw [value_of_infinite hs, valueOf_posInfinity]
        exact neg_lt_self beyond_pos

theorem Defined.value_le (h : a.Defined) : a.value ≤ beyond := by
  by_cases hgreatest : a.parts = .infinity .positive
  · exact ((value_of_infinite hgreatest).trans valueOf_posInfinity).le
  · exact (h.value_lt hgreatest).le

theorem Defined.le_value (h : a.Defined) : -beyond ≤ a.value := by
  by_cases hleast : a.parts = .infinity .negative
  · exact ((value_of_infinite hleast).trans valueOf_negInfinity).ge
  · exact (h.lt_value hleast).le

/-! ### Complements -/

theorem parts_complement (a : Degree) : a.complement.parts =
    unpack Format.binary64 (pack Format.binary64
      (UnpackedFloat.sub Format.binary64 (1.0 : Degree).parts a.parts)) := rfl

theorem parts_complement_of_infinite {s : Sign} (h : a.parts = .infinity s) :
    a.complement.parts = .infinity (-s) := by
  rw [parts_complement, parts_one, h]
  exact unpack_packedInfinity (-s)

theorem nearest_complement (h : a.IsNumber) : Nearest a.complement (1 - a.value) := by
  have hdifference := nearest_sub isNumber_one h
  rwa [value_one] at hdifference

/-- A complement is undefined exactly for what is undefined. -/
theorem defined_complement_iff : a.complement.Defined ↔ a.Defined := by
  constructor
  · intro h ha
    refine h ?_
    rw [parts_complement, parts_one, ha]
    rfl
  · intro h
    rcases h.isNumber_or_infinite with hnumber | ⟨s, hs⟩
    · exact (nearest_complement hnumber).defined
    · rw [Defined, parts_complement_of_infinite hs]
      intro hundefined
      cases hundefined

/-- No complement is the negative zero. -/
theorem parts_complement_ne (a : Degree) : a.complement.parts ≠ .zero .negative := by
  obtain ⟨hcanonical, hne⟩ := sub_ne_zero_negative (1.0 : Degree).canonical_parts a.canonical_parts
    (by rw [parts_one]; nofun)
  exact unpack_pack_ne_zero_negative hcanonical hne

/-- **The complement reverses the order**, also of the infinite degrees. -/
theorem value_complement_le (ha : a.Defined) (hb : b.Defined) (h : a.value ≤ b.value) :
    b.complement.value ≤ a.complement.value := by
  by_cases hleast : a.parts = .infinity .negative
  · rw [value_of_infinite (parts_complement_of_infinite hleast)]
    exact (defined_complement_iff.mpr hb).value_le.trans_eq valueOf_posInfinity.symm
  by_cases hgreatest : b.parts = .infinity .positive
  · rw [value_of_infinite (parts_complement_of_infinite hgreatest)]
    exact valueOf_negInfinity.trans_le (defined_complement_iff.mpr ha).le_value
  -- what is left lies between the infinite degrees, so both are numbers
  have hlower := ha.lt_value hleast
  have hupper := hb.value_lt hgreatest
  have hna := isNumber_of_abs_lt ha (abs_lt.mpr ⟨hlower, h.trans_lt hupper⟩)
  have hnb := isNumber_of_abs_lt hb (abs_lt.mpr ⟨hlower.trans_le h, hupper⟩)
  have hle := sub_le_sub_left h 1
  exact (le_iff.mp ((nearest_complement hnb).le_of_le (nearest_complement hna) hle)).2

/-! ### De Morgan's laws -/

/-- Where one degree is not below another, its complement is not above, also if the two have no
order. -/
theorem not_complement_lt (h : ¬ b < a) : ¬ a.complement < b.complement := by
  intro hlt
  obtain ⟨⟨hca, hcb⟩, hvalue⟩ := lt_iff.mp hlt
  have ha := defined_complement_iff.mp hca
  have hb := defined_complement_iff.mp hcb
  exact absurd (value_complement_le ha hb (value_le_of_not_lt ha hb h)) (not_le.mpr hvalue)

/-- Where rounding has made a tie of the complements, they are the same. -/
theorem complement_eq_of_not_lt (h : b < a) (htie : ¬ a.complement < b.complement) :
    a.complement = b.complement := by
  obtain ⟨⟨hb, ha⟩, hvalue⟩ := lt_iff.mp h
  have hca := defined_complement_iff.mpr ha
  have hcb := defined_complement_iff.mpr hb
  exact eq_of_value_eq hca hcb a.parts_complement_ne b.parts_complement_ne
    (le_antisymm (value_complement_le hb ha hvalue.le) (value_le_of_not_lt hcb hca htie))

/-- **The complement of a meet is the join of the complements.** -/
theorem complement_meet (a b : Degree) :
    (meet a b).complement = join a.complement b.complement := by
  unfold meet join
  by_cases hba : b < a
  · rw [if_pos hba]
    split
    · rfl
    · next htie => exact (complement_eq_of_not_lt hba htie).symm
  · rw [if_neg hba, if_neg (not_complement_lt hba)]

/-- **The complement of a join is the meet of the complements.** -/
theorem complement_join (a b : Degree) :
    (join a b).complement = meet a.complement b.complement := by
  unfold meet join
  by_cases hab : a < b
  · rw [if_pos hab]
    split
    · rfl
    · next htie => exact complement_eq_of_not_lt hab htie
  · rw [if_neg hab, if_neg (not_complement_lt hab)]

end Degree

end FuzzyGates
