import FuzzyGates.Proofs.Degree.Storing

/-!
# The operators on the unit interval

Between zero and one no operator leaves the interval.  Where the exact result lies in it the
rounded one does, since zero and one are rounded to themselves; only a sum can exceed one,
and the sum is cut off.

* `InUnit`, `inUnit_iff` — the interval, among degrees and among rational numbers.
* `value_meet`, `value_join` — the lesser and the greater of two values.
* `Nearest.inUnit` — an exact result in the interval is rounded to a degree in it.
* `inUnit_boundedSum`, `inUnit_product`, `inUnit_difference`, `inUnit_complement`,
  `inUnit_cut` — the operators one by one.
* **`Connective.inUnit_apply`** — no connective leaves the interval.
-/

namespace FuzzyGates.Degree

open Binary64
open Float.Model.UnpackedFloat (Sign)

variable {a b : Degree}

/-- The degree lies between zero and one. -/
def InUnit (x : Degree) : Prop := 0.0 ≤ x ∧ x ≤ 1.0

instance (x : Degree) : Decidable x.InUnit := inferInstanceAs (Decidable (_ ∧ _))

theorem parts_one : (1.0 : Degree).parts = .finite .positive (2 ^ 52) (-52) (by decide) := rfl

theorem value_zero : (0.0 : Degree).value = 0 := rfl

theorem value_one : (1.0 : Degree).value = 1 := by
  unfold value
  rw [parts_one, valueOf_positive]
  norm_num

theorem isNumber_zero : IsNumber 0.0 := rfl

theorem isNumber_one : IsNumber 1.0 := rfl

/-- A degree in the unit interval is a number. -/
theorem inUnit_iff {x : Degree} : x.InUnit ↔ x.IsNumber ∧ 0 ≤ x.value ∧ x.value ≤ 1 := by
  unfold InUnit
  rw [le_iff, le_iff, value_zero, value_one]
  constructor
  · rintro ⟨⟨⟨-, hx⟩, hlower⟩, -, hupper⟩
    refine ⟨isNumber_of_abs_lt hx ?_, hlower, hupper⟩
    rw [abs_of_nonneg hlower]
    exact hupper.trans_lt one_lt_beyond
  · rintro ⟨hx, hlower, hupper⟩
    exact ⟨⟨⟨isNumber_zero.defined, hx.defined⟩, hlower⟩, ⟨hx.defined, isNumber_one.defined⟩,
      hupper⟩

theorem InUnit.isNumber (h : a.InUnit) : a.IsNumber := (inUnit_iff.mp h).1

theorem InUnit.defined (h : a.InUnit) : a.Defined := h.isNumber.defined

theorem InUnit.value_nonneg (h : a.InUnit) : 0 ≤ a.value := (inUnit_iff.mp h).2.1

theorem InUnit.value_le_one (h : a.InUnit) : a.value ≤ 1 := (inUnit_iff.mp h).2.2

theorem nearest_zero : Nearest 0.0 0 := by
  have h := isNumber_zero.nearest
  rwa [value_zero] at h

theorem nearest_one : Nearest 1.0 1 := by
  have h := isNumber_one.nearest
  rwa [value_one] at h

/-- What an exact result in the unit interval is rounded to is in the unit interval. -/
theorem Nearest.inUnit {q : ℚ} (h : Nearest a q) (hlower : 0 ≤ q) (hupper : q ≤ 1) : a.InUnit :=
  ⟨nearest_zero.le_of_le h hlower, h.le_of_le nearest_one hupper⟩

theorem inUnit_zero : InUnit 0.0 := nearest_zero.inUnit le_rfl zero_le_one

theorem inUnit_one : InUnit 1.0 := nearest_one.inUnit zero_le_one le_rfl

/-! ### The operators -/

theorem meet_eq_or (a b : Degree) : meet a b = a ∨ meet a b = b := by
  unfold meet
  split
  · exact .inr rfl
  · exact .inl rfl

theorem join_eq_or (a b : Degree) : join a b = a ∨ join a b = b := by
  unfold join
  split
  · exact .inr rfl
  · exact .inl rfl

/-- A meet has the lesser of two values. -/
theorem value_meet (ha : a.Defined) (hb : b.Defined) : (meet a b).value = min a.value b.value := by
  unfold meet
  split
  · next hba => exact (min_eq_right (lt_iff.mp hba).2.le).symm
  · next hba => exact (min_eq_left (value_le_of_not_lt ha hb hba)).symm

/-- A join has the greater of two values. -/
theorem value_join (ha : a.Defined) (hb : b.Defined) : (join a b).value = max a.value b.value := by
  unfold join
  split
  · next hab => exact (max_eq_right (lt_iff.mp hab).2.le).symm
  · next hab => exact (max_eq_left (value_le_of_not_lt hb ha hab)).symm

theorem inUnit_meet (ha : a.InUnit) (hb : b.InUnit) : (meet a b).InUnit := by
  rcases meet_eq_or a b with h | h <;> rw [h] <;> assumption

theorem inUnit_join (ha : a.InUnit) (hb : b.InUnit) : (join a b).InUnit := by
  rcases join_eq_or a b with h | h <;> rw [h] <;> assumption

/-- The sum may exceed one, but then it is cut off. -/
theorem inUnit_boundedSum (ha : a.InUnit) (hb : b.InUnit) : (boundedSum a b).InUnit := by
  have hsum := nearest_add ha.isNumber hb.isNumber
  have hnonneg : 0 ≤ a.value + b.value := add_nonneg ha.value_nonneg hb.value_nonneg
  unfold boundedSum meet
  split
  · next hlt =>
      have hle : a + b ≤ 1.0 := le_iff.mpr ⟨(lt_iff.mp hlt).1, (lt_iff.mp hlt).2.le⟩
      exact ⟨nearest_zero.le_of_le hsum hnonneg, hle⟩
  · exact inUnit_one

theorem inUnit_product (ha : a.InUnit) (hb : b.InUnit) : (product a b).InUnit :=
  (nearest_mul ha.isNumber hb.isNumber).inUnit (mul_nonneg ha.value_nonneg hb.value_nonneg)
    (mul_le_one₀ ha.value_le_one hb.value_nonneg hb.value_le_one)

theorem inUnit_complement (ha : a.InUnit) : a.complement.InUnit := by
  have hdifference := nearest_sub isNumber_one ha.isNumber
  rw [value_one] at hdifference
  exact hdifference.inUnit (sub_nonneg.mpr ha.value_le_one) (sub_le_self 1 ha.value_nonneg)

theorem inUnit_difference (ha : a.InUnit) (hb : b.InUnit) : (difference a b).InUnit := by
  have hjoin := inUnit_join ha hb
  have hmeet := inUnit_meet ha hb
  have hle : (meet a b).value ≤ (join a b).value := by
    rw [value_meet ha.defined hb.defined, value_join ha.defined hb.defined]
    exact min_le_max
  refine (nearest_sub hjoin.isNumber hmeet.isNumber).inUnit (sub_nonneg.mpr hle) ?_
  exact (sub_le_self _ hmeet.value_nonneg).trans hjoin.value_le_one

/-- A cut leaves the unit interval at no threshold, not even at an undefined one. -/
theorem inUnit_cut (ha : a.InUnit) (threshold : Degree) : (a.cut threshold).InUnit := by
  unfold cut
  split
  · exact ha
  · exact inUnit_zero

end FuzzyGates.Degree

namespace FuzzyGates

/-- **No connective leaves the unit interval.** -/
theorem Connective.inUnit_apply (c : Connective) {a b : Degree} (ha : a.InUnit) (hb : b.InUnit) :
    (c.apply a b).InUnit := by
  cases c with
  | add => exact Degree.inUnit_boundedSum ha hb
  | mult => exact Degree.inUnit_product ha hb
  | and => exact Degree.inUnit_meet ha hb
  | or => exact Degree.inUnit_join ha hb
  | xor => exact Degree.inUnit_difference ha hb

end FuzzyGates
