import FuzzyGates.Proofs.Degree.Monotone

/-!
# Degrees that compare as equal

Comparing finds the two zeros equal and what is undefined unequal to everything.  So degrees that
are equal as numbers, or both undefined, are the same but for the sign of a zero.  No operator
brings more of that sign to light than the sign of a zero again: sums and products of zeros are
zeros, and comparing does not see the sign at all.  For the same reason it shows in the sign of a
zero only which of two numbers comes first in a connective.

* `SameUpToZero`, `HidesZeroSign` — numbers but for the sign of a zero, and the operations on them.
* `beq_iff`, `Alike`, `alike_iff_parts` — the numeric equality of degrees.
* `Alike.add`, `Alike.sub`, `Alike.mul`, `Alike.meet`, `Alike.join`, `Alike.cut` — it is kept.
* **`Connective.alike_apply`** — degrees that are alike are joined to degrees that are.
* **`Connective.apply_comm`** — the order of two numbers does not matter to a connective.
-/

namespace FuzzyGates

open Float.Model (Format UnpackedFloat)
open Float.Model.UnpackedFloat

namespace Binary64

/-! ### The sign of a zero -/

/-- The same number but for the sign of a zero. -/
def SameUpToZero (u v : UnpackedFloat) : Prop := u = v ∨ ∃ s t, u = .zero s ∧ v = .zero t

theorem SameUpToZero.trans {u v w : UnpackedFloat} (huv : SameUpToZero u v)
    (hvw : SameUpToZero v w) : SameUpToZero u w := by
  rcases huv with rfl | ⟨s, t, rfl, rfl⟩
  · exact hvw
  · rcases hvw with rfl | ⟨s', t', -, rfl⟩
    · exact .inr ⟨s, t, rfl, rfl⟩
    · exact .inr ⟨s, t', rfl, rfl⟩

/-- Storing keeps the zeros. -/
theorem SameUpToZero.unpack_pack {u v : UnpackedFloat} (h : SameUpToZero u v) :
    SameUpToZero (unpack Format.binary64 (pack Format.binary64 u))
      (unpack Format.binary64 (pack Format.binary64 v)) := by
  rcases h with rfl | ⟨s, t, rfl, rfl⟩
  · exact .inl rfl
  · exact .inr ⟨s, t, Binary64.unpack_pack trivial, Binary64.unpack_pack trivial⟩

/-- The sign of a zero among the operands shows in the sign of a zero only, if at all. -/
structure HidesZeroSign (op : UnpackedFloat → UnpackedFloat → UnpackedFloat) : Prop where
  left : ∀ s t v, SameUpToZero (op (.zero s) v) (op (.zero t) v)
  right : ∀ u s t, SameUpToZero (op u (.zero s)) (op u (.zero t))

theorem HidesZeroSign.apply {op : UnpackedFloat → UnpackedFloat → UnpackedFloat}
    (h : HidesZeroSign op) {u u' v v' : UnpackedFloat} (hu : SameUpToZero u u')
    (hv : SameUpToZero v v') : SameUpToZero (op u v) (op u' v') := by
  have hfirst : SameUpToZero (op u v) (op u' v) := by
    rcases hu with rfl | ⟨s, t, rfl, rfl⟩
    · exact .inl rfl
    · exact h.left s t v
  have hsecond : SameUpToZero (op u' v) (op u' v') := by
    rcases hv with rfl | ⟨s, t, rfl, rfl⟩
    · exact .inl rfl
    · exact h.right u' s t
  exact hfirst.trans hsecond

theorem hidesZeroSign_add : HidesZeroSign (UnpackedFloat.add Format.binary64) where
  left s t v := by
    cases v with
    | notANumber | infinity | finite => exact .inl rfl
    | zero r => cases s <;> cases t <;> cases r <;> exact .inr ⟨_, _, rfl, rfl⟩
  right u s t := by
    cases u with
    | notANumber | infinity | finite => exact .inl rfl
    | zero r => cases s <;> cases t <;> cases r <;> exact .inr ⟨_, _, rfl, rfl⟩

theorem hidesZeroSign_sub : HidesZeroSign (UnpackedFloat.sub Format.binary64) where
  left s t v := by
    cases v with
    | notANumber | infinity | finite => exact .inl rfl
    | zero r => cases s <;> cases t <;> cases r <;> exact .inr ⟨_, _, rfl, rfl⟩
  right u s t := by
    cases u with
    | notANumber | infinity | finite => exact .inl rfl
    | zero r => cases s <;> cases t <;> cases r <;> exact .inr ⟨_, _, rfl, rfl⟩

/-- Of a product with a zero the sign is seen in the sign of a zero. -/
theorem hidesZeroSign_mul : HidesZeroSign (UnpackedFloat.mul Format.binary64) where
  left s t v := by
    cases v with
    | notANumber | infinity => exact .inl rfl
    | zero r | finite r => exact .inr ⟨s * r, t * r, rfl, rfl⟩
  right u s t := by
    cases u with
    | notANumber | infinity => exact .inl rfl
    | zero r | finite r => exact .inr ⟨r * s, r * t, rfl, rfl⟩

end Binary64

namespace Degree

open Binary64

variable {a a' b b' : Degree}

/-! ### Numeric equality -/

/-- **Degrees compare as equal if their numbers are**; what is undefined equals nothing. -/
theorem beq_iff : (a == b) = true ↔ (a.Defined ∧ b.Defined) ∧ a.value = b.value := by
  show (a.parts.compare b.parts == some .eq) = true ↔ _
  by_cases h : a.Defined ∧ b.Defined
  · rw [compare_parts_of_defined h.1 h.2]
    simp [h]
  · rw [compare_parts_of_not_defined h]
    simp [h]

theorem beq_self_iff : (a == a) = true ↔ a.Defined := by
  rw [beq_iff]
  simp

instance (x : Degree) : Decidable x.Defined := decidable_of_iff _ beq_self_iff

/-- The degrees are numerically equal, or both are undefined. -/
def Alike (a b : Degree) : Prop := (a == b) = true ∨ ¬ a.Defined ∧ ¬ b.Defined

theorem value_of_not_defined (h : ¬ a.Defined) : a.value = 0 := by
  unfold value
  rw [not_not.mp h]
  rfl

theorem alike_iff : a.Alike b ↔ (a.Defined ↔ b.Defined) ∧ a.value = b.value := by
  unfold Alike
  rw [beq_iff]
  constructor
  · rintro (⟨⟨ha, hb⟩, hvalue⟩ | ⟨ha, hb⟩)
    · exact ⟨iff_of_true ha hb, hvalue⟩
    · exact ⟨iff_of_false ha hb, (value_of_not_defined ha).trans (value_of_not_defined hb).symm⟩
  · rintro ⟨hdefined, hvalue⟩
    by_cases ha : a.Defined
    · exact .inl ⟨⟨ha, hdefined.mp ha⟩, hvalue⟩
    · exact .inr ⟨ha, hdefined.not.mp ha⟩

theorem Alike.defined_iff (h : a.Alike b) : a.Defined ↔ b.Defined := (alike_iff.mp h).1

theorem Alike.value_eq (h : a.Alike b) : a.value = b.value := (alike_iff.mp h).2

theorem Alike.refl (a : Degree) : a.Alike a := alike_iff.mpr ⟨Iff.rfl, rfl⟩

theorem Alike.symm (h : a.Alike b) : b.Alike a :=
  alike_iff.mpr ⟨h.defined_iff.symm, h.value_eq.symm⟩

theorem Alike.trans {c : Degree} (hab : a.Alike b) (hbc : b.Alike c) : a.Alike c :=
  alike_iff.mpr ⟨hab.defined_iff.trans hbc.defined_iff, hab.value_eq.trans hbc.value_eq⟩

theorem alike_of_beq (h : (a == b) = true) : a.Alike b := .inl h

/-- Among degrees that are not undefined, being alike is being equal as numbers. -/
theorem Alike.beq (h : a.Alike b) (ha : a.Defined) : (a == b) = true :=
  h.resolve_right fun hboth => hboth.1 ha

theorem alike_of_value_eq (ha : a.Defined) (hb : b.Defined) (h : a.value = b.value) : a.Alike b :=
  alike_of_beq (beq_iff.mpr ⟨⟨ha, hb⟩, h⟩)

/-- **Degrees that are alike are the same but for the sign of a zero.** -/
theorem alike_iff_parts : a.Alike b ↔ SameUpToZero a.parts b.parts := by
  constructor
  · rintro (hbeq | ⟨ha, hb⟩)
    · exact eq_of_compare_eq (beq_iff_eq.mp hbeq)
    · exact .inl ((not_not.mp ha).trans (not_not.mp hb).symm)
  · rintro (hparts | ⟨s, t, ha, hb⟩)
    · exact parts_injective hparts ▸ .refl a
    · refine alike_of_value_eq (by simp [Defined, ha]) (by simp [Defined, hb]) ?_
      unfold value
      rw [ha, hb]
      rfl

/-! ### Operations that keep it -/

theorem Alike.add (ha : a.Alike a') (hb : b.Alike b') : (a + b).Alike (a' + b') :=
  alike_iff_parts.mpr
    (hidesZeroSign_add.apply (alike_iff_parts.mp ha) (alike_iff_parts.mp hb)).unpack_pack

theorem Alike.sub (ha : a.Alike a') (hb : b.Alike b') : (a - b).Alike (a' - b') :=
  alike_iff_parts.mpr
    (hidesZeroSign_sub.apply (alike_iff_parts.mp ha) (alike_iff_parts.mp hb)).unpack_pack

theorem Alike.mul (ha : a.Alike a') (hb : b.Alike b') : (a * b).Alike (a' * b') :=
  alike_iff_parts.mpr
    (hidesZeroSign_mul.apply (alike_iff_parts.mp ha) (alike_iff_parts.mp hb)).unpack_pack

/-- Comparing does not see the sign of a zero. -/
theorem Alike.lt_congr (ha : a.Alike a') (hb : b.Alike b') : a < b ↔ a' < b' := by
  rw [lt_iff, lt_iff, ha.defined_iff, hb.defined_iff, ha.value_eq, hb.value_eq]

theorem Alike.le_congr (ha : a.Alike a') (hb : b.Alike b') : a ≤ b ↔ a' ≤ b' := by
  rw [le_iff, le_iff, ha.defined_iff, hb.defined_iff, ha.value_eq, hb.value_eq]

theorem Alike.meet (ha : a.Alike a') (hb : b.Alike b') : (meet a b).Alike (meet a' b') := by
  unfold Degree.meet
  by_cases hlt : b < a
  · rwa [if_pos hlt, if_pos ((hb.lt_congr ha).mp hlt)]
  · rwa [if_neg hlt, if_neg ((hb.lt_congr ha).not.mp hlt)]

theorem Alike.join (ha : a.Alike a') (hb : b.Alike b') : (join a b).Alike (join a' b') := by
  unfold Degree.join
  by_cases hlt : a < b
  · rwa [if_pos hlt, if_pos ((ha.lt_congr hb).mp hlt)]
  · rwa [if_neg hlt, if_neg ((ha.lt_congr hb).not.mp hlt)]

theorem Alike.complement (h : a.Alike a') : a.complement.Alike a'.complement :=
  (Alike.refl 1.0).sub h

/-- A cut does not tell thresholds apart that are alike. -/
theorem Alike.cut {t t' : Degree} (ha : a.Alike a') (ht : t.Alike t') :
    (a.cut t).Alike (a'.cut t') := by
  unfold Degree.cut
  by_cases hle : t ≤ a
  · rwa [if_pos hle, if_pos ((ht.le_congr ha).mp hle)]
  · rw [if_neg hle, if_neg ((ht.le_congr ha).not.mp hle)]
    exact .refl 0.0

/-! ### The order of two numbers -/

/-- What the same exact result is rounded to is alike. -/
theorem Nearest.alike {q : ℚ} (ha : Nearest a q) (hb : Nearest b q) : a.Alike b :=
  alike_of_value_eq ha.defined hb.defined (ha.value_eq.trans hb.value_eq.symm)

theorem alike_meet_comm (ha : a.Defined) (hb : b.Defined) : (meet a b).Alike (meet b a) := by
  refine alike_of_value_eq (ha.meet hb) (hb.meet ha) ?_
  rw [value_meet ha hb, value_meet hb ha, min_comm]

theorem alike_join_comm (ha : a.Defined) (hb : b.Defined) : (join a b).Alike (join b a) := by
  refine alike_of_value_eq (ha.join hb) (hb.join ha) ?_
  rw [value_join ha hb, value_join hb ha, max_comm]

theorem alike_add_comm (ha : a.IsNumber) (hb : b.IsNumber) : (a + b).Alike (b + a) := by
  have hsum := nearest_add hb ha
  rw [add_comm] at hsum
  exact (nearest_add ha hb).alike hsum

theorem alike_mul_comm (ha : a.IsNumber) (hb : b.IsNumber) : (a * b).Alike (b * a) := by
  have hproduct := nearest_mul hb ha
  rw [mul_comm] at hproduct
  exact (nearest_mul ha hb).alike hproduct

end Degree

namespace Connective

variable {a a' b b' : Degree}

/-- **A connective does not tell degrees apart that are alike**, not even undefined or infinite
ones. -/
theorem alike_apply (c : Connective) (ha : a.Alike a') (hb : b.Alike b') :
    (c.apply a b).Alike (c.apply a' b') := by
  cases c with
  | add => exact (Degree.Alike.refl 1.0).meet (ha.add hb)
  | mult => exact ha.mul hb
  | and => exact ha.meet hb
  | or => exact ha.join hb
  | xor => exact (ha.join hb).sub (ha.meet hb)

/-- **The order of two numbers does not matter to a connective.** -/
theorem apply_comm (c : Connective) (ha : a.IsNumber) (hb : b.IsNumber) :
    (c.apply a b).Alike (c.apply b a) := by
  have hmeet := Degree.alike_meet_comm ha.defined hb.defined
  have hjoin := Degree.alike_join_comm ha.defined hb.defined
  cases c with
  | add => exact (Degree.Alike.refl 1.0).meet (Degree.alike_add_comm ha hb)
  | mult => exact Degree.alike_mul_comm ha hb
  | and => exact hmeet
  | or => exact hjoin
  | xor => exact hjoin.sub hmeet

end Connective

end FuzzyGates
