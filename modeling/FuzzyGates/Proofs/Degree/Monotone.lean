import FuzzyGates.Proofs.Degree.Duality

/-!
# The operators and the order of degrees

On the unit interval the complement reverses the order, and all connectives but the difference
keep it in both operands.  Rounding never reverses an order, and cutting a sum off at one does not
either.  A cut falls to zero below its threshold, which is no step upwards, for zero is the least
degree there is in the interval.

* `InUnit.le_iff` — the order in the interval is that of rational numbers.
* `le_meet_iff`, `le_join_iff` — which thresholds a meet and a join reach.
* `meet_mono`, `join_mono`, `boundedSum_mono`, `product_mono` — the connectives one by one.
* `complement_antitone`, `cut_mono` — the operators with one operand.
* **`Connective.apply_mono`** — the connectives without the difference keep the order.
-/

namespace FuzzyGates

namespace Degree

variable {a a' b b' : Degree}

/-- The order in the unit interval is that of rational numbers. -/
theorem InUnit.le_iff (ha : a.InUnit) (hb : b.InUnit) : a ≤ b ↔ a.value ≤ b.value :=
  Degree.le_iff.trans (and_iff_right ⟨ha.defined, hb.defined⟩)

/-- Nothing in the unit interval is below zero. -/
theorem InUnit.zero_le (h : a.InUnit) : 0.0 ≤ a := h.1

theorem InUnit.le_refl (h : a.InUnit) : a ≤ a := (h.le_iff h).mpr le_rfl

protected theorem le_trans (hab : a ≤ b) (hbb : b ≤ b') : a ≤ b' := by
  obtain ⟨⟨ha, -⟩, hfirst⟩ := Degree.le_iff.mp hab
  obtain ⟨⟨-, hb⟩, hsecond⟩ := Degree.le_iff.mp hbb
  exact Degree.le_iff.mpr ⟨⟨ha, hb⟩, hfirst.trans hsecond⟩

/-! ### Meets and joins -/

theorem Defined.meet (ha : a.Defined) (hb : b.Defined) : (meet a b).Defined := by
  rcases meet_eq_or a b with h | h <;> rw [h] <;> assumption

theorem Defined.join (ha : a.Defined) (hb : b.Defined) : (join a b).Defined := by
  rcases join_eq_or a b with h | h <;> rw [h] <;> assumption

/-- A threshold is reached by a meet if both degrees reach it. -/
theorem le_meet_iff (ha : a.Defined) (hb : b.Defined) {t : Degree} :
    t ≤ meet a b ↔ t ≤ a ∧ t ≤ b := by
  rw [le_iff, le_iff, le_iff, value_meet ha hb, le_min_iff]
  simp only [ha, hb, ha.meet hb, and_true]
  exact and_and_left

/-- A threshold is reached by a join if one of the degrees reaches it. -/
theorem le_join_iff (ha : a.Defined) (hb : b.Defined) {t : Degree} :
    t ≤ join a b ↔ t ≤ a ∨ t ≤ b := by
  rw [le_iff, le_iff, le_iff, value_join ha hb, le_max_iff]
  simp only [ha, hb, ha.join hb, and_true]
  exact and_or_left

/-- A meet keeps the order of degrees, in the unit interval and outside. -/
theorem meet_mono (ha : a ≤ a') (hb : b ≤ b') : meet a b ≤ meet a' b' := by
  obtain ⟨⟨hda, hda'⟩, hva⟩ := Degree.le_iff.mp ha
  obtain ⟨⟨hdb, hdb'⟩, hvb⟩ := Degree.le_iff.mp hb
  refine Degree.le_iff.mpr ⟨⟨hda.meet hdb, hda'.meet hdb'⟩, ?_⟩
  rw [value_meet hda hdb, value_meet hda' hdb']
  exact min_le_min hva hvb

/-- A join keeps the order of degrees, in the unit interval and outside. -/
theorem join_mono (ha : a ≤ a') (hb : b ≤ b') : join a b ≤ join a' b' := by
  obtain ⟨⟨hda, hda'⟩, hva⟩ := Degree.le_iff.mp ha
  obtain ⟨⟨hdb, hdb'⟩, hvb⟩ := Degree.le_iff.mp hb
  refine Degree.le_iff.mpr ⟨⟨hda.join hdb, hda'.join hdb'⟩, ?_⟩
  rw [value_join hda hdb, value_join hda' hdb']
  exact max_le_max hva hvb

/-! ### Rounded results -/

section Rounded

variable (ha : a.InUnit) (ha' : a'.InUnit) (hb : b.InUnit) (hb' : b'.InUnit)

include ha ha' hb hb'

/-- The sum is rounded and cut off, neither of which reverses an order. -/
theorem boundedSum_mono (hle : a ≤ a') (hle' : b ≤ b') : boundedSum a b ≤ boundedSum a' b' := by
  have hexact : a.value + b.value ≤ a'.value + b'.value :=
    add_le_add ((ha.le_iff ha').mp hle) ((hb.le_iff hb').mp hle')
  have hsum : a + b ≤ a' + b' :=
    (nearest_add ha.isNumber hb.isNumber).le_of_le (nearest_add ha'.isNumber hb'.isNumber) hexact
  exact meet_mono inUnit_one.le_refl hsum

/-- Products of degrees that are not negative keep the order. -/
theorem product_mono (hle : a ≤ a') (hle' : b ≤ b') : product a b ≤ product a' b' := by
  have hexact : a.value * b.value ≤ a'.value * b'.value :=
    mul_le_mul ((ha.le_iff ha').mp hle) ((hb.le_iff hb').mp hle') hb.value_nonneg ha'.value_nonneg
  exact (nearest_mul ha.isNumber hb.isNumber).le_of_le (nearest_mul ha'.isNumber hb'.isNumber)
    hexact

end Rounded

/-! ### Operators with one operand -/

/-- **The complement reverses the order.** -/
theorem complement_antitone (h : a ≤ a') : a'.complement ≤ a.complement := by
  obtain ⟨⟨ha, ha'⟩, hvalue⟩ := Degree.le_iff.mp h
  exact Degree.le_iff.mpr ⟨⟨defined_complement_iff.mpr ha', defined_complement_iff.mpr ha⟩,
    value_complement_le ha ha' hvalue⟩

/-- **A cut keeps the order** at every threshold, an undefined one included: what reaches the
threshold still does so after a step upwards, and below it there is only zero. -/
theorem cut_mono (ha' : a'.InUnit) (h : a ≤ a') (threshold : Degree) :
    a.cut threshold ≤ a'.cut threshold := by
  by_cases hreaches : threshold ≤ a
  · unfold cut
    rw [if_pos hreaches, if_pos (Degree.le_trans hreaches h)]
    exact h
  · have hzero : a.cut threshold = 0.0 := if_neg hreaches
    rw [hzero]
    exact (inUnit_cut ha' threshold).zero_le

end Degree

/-- **Every connective but the difference keeps the order** in both operands. -/
theorem Connective.apply_mono {c : Connective} (hc : c ≠ .xor) {a a' b b' : Degree}
    (ha : a.InUnit) (ha' : a'.InUnit) (hb : b.InUnit) (hb' : b'.InUnit)
    (hle : a ≤ a') (hle' : b ≤ b') : c.apply a b ≤ c.apply a' b' := by
  cases c with
  | add => exact Degree.boundedSum_mono ha ha' hb hb' hle hle'
  | mult => exact Degree.product_mono ha ha' hb hb' hle hle'
  | and => exact Degree.meet_mono hle hle'
  | or => exact Degree.join_mono hle hle'
  | xor => exact absurd rfl hc

end FuzzyGates
