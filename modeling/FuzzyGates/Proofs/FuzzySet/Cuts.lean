import Mathlib.Data.Finset.Dedup
import Mathlib.Data.Finset.Filter
import Mathlib.Data.Finset.Lattice.Basic
import FuzzyGates.Proofs.Degree.Equality
import FuzzyGates.Proofs.FuzzySet.Chains
import FuzzyGates.Proofs.OrderedMap

/-!
# Cuts of fuzzy sets

The cut of a set at a threshold holds the elements whose degree reaches the threshold.  An element
that a set does not list has degree zero, and above zero this is told from the cuts: no such
element reaches a positive threshold.  There the cut of an intersection is the intersection of the
cuts.  A union has no other elements than its left set, so of the right set's cut only these
take part.

* `FuzzySet.Defined` — no degree of the set is undefined.
* `cut`, `mem_cut_iff`, `mem_cut_iff_of_pos` — who is in a cut.
* `mem_cut_intersection_iff`, `mem_cut_union_iff` — the cuts at any threshold, by the
  degrees in both sets.
* **`cuts_respect_operations`** — cuts at positive thresholds, and the cuts of one set.
-/

namespace FuzzyGates.FuzzySet

/-- None of the degrees is undefined. -/
def Defined (s : FuzzySet) : Prop := ∀ p ∈ s.toList, p.2.Defined

instance (s : FuzzySet) : Decidable s.Defined :=
  inferInstanceAs (Decidable (∀ p ∈ s.toList, p.2.Defined))

/-- The elements whose degree reaches a threshold, whatever their order. -/
def cut (s : FuzzySet) (alpha : Degree) : Finset String := (s.alphaCut alpha).toFinset

variable {s t : FuzzySet} {x : String} {alpha : Degree}

/-! ### The degree of an element -/

theorem get?_eq_membership (hx : x ∈ s.degrees.keys) :
    s.degrees.get? x = some (s.membership x) := by
  obtain ⟨d, hd⟩ := Option.isSome_iff_exists.mp ((s.degrees.get?_isSome_iff x).mpr hx)
  simp [membership, hd]

theorem membership_of_not_mem (hx : x ∉ s.degrees.keys) : s.membership x = 0.0 := by
  simp [membership, OrderedMap.get?_eq_none_iff.mpr hx]

theorem mem_toList_iff {d : Degree} :
    (x, d) ∈ s.toList ↔ x ∈ s.degrees.keys ∧ s.membership x = d := by
  constructor
  · intro hmem
    have hx : x ∈ s.degrees.keys := OrderedMap.mem_keys_iff.mpr ⟨d, hmem⟩
    have hget : s.degrees.get? x = some d := OrderedMap.get?_eq_some_iff.mpr hmem
    exact ⟨hx, Option.some.inj ((get?_eq_membership hx).symm.trans hget)⟩
  · rintro ⟨hx, rfl⟩
    exact OrderedMap.get?_eq_some_iff.mp (get?_eq_membership hx)

/-- In a set without undefined degrees no element has one, not even an element that the set does
not list. -/
theorem Defined.membership (hs : s.Defined) (x : String) : (s.membership x).Defined := by
  by_cases hx : x ∈ s.degrees.keys
  · exact hs (x, s.membership x) (mem_toList_iff.mpr ⟨hx, rfl⟩)
  · rw [membership_of_not_mem hx]
    exact Degree.isNumber_zero.defined

/-! ### Who is in a cut -/

theorem mem_alphaCut_iff :
    x ∈ s.alphaCut alpha ↔ x ∈ s.degrees.keys ∧ alpha ≤ s.membership x := by
  have hcut : x ∈ s.alphaCut alpha ↔ ∃ d, (x, d) ∈ s.toList ∧ alpha ≤ d := by
    simp [alphaCut]
  simp [hcut, mem_toList_iff, and_assoc]

theorem mem_cut_iff : x ∈ s.cut alpha ↔ x ∈ s.degrees.keys ∧ alpha ≤ s.membership x :=
  List.mem_toFinset.trans mem_alphaCut_iff

/-- What reaches a positive threshold is listed. -/
theorem mem_cut_iff_of_pos (halpha : 0.0 < alpha) :
    x ∈ s.cut alpha ↔ alpha ≤ s.membership x := by
  refine mem_cut_iff.trans (and_iff_right_of_imp fun hreaches => ?_)
  by_contra hx
  rw [membership_of_not_mem hx] at hreaches
  exact absurd (Degree.le_iff.mp hreaches).2 (not_le.mpr (Degree.lt_iff.mp halpha).2)

/-- A greater threshold cuts more off. -/
theorem cut_subset_cut (s : FuzzySet) {beta : Degree} (h : alpha ≤ beta) :
    s.cut beta ⊆ s.cut alpha := by
  intro x hx
  obtain ⟨hlisted, hreaches⟩ := mem_cut_iff.mp hx
  exact mem_cut_iff.mpr ⟨hlisted, Degree.le_trans h hreaches⟩

/-! ### Cuts of intersections and unions -/

section Operations

variable (hs : s.Defined) (ht : t.Defined)

include hs ht

/-- At any threshold the elements of an intersection are those of the left set's cut whose degree
in the right set reaches the threshold too. -/
theorem mem_cut_intersection_iff :
    x ∈ (join .and s t).cut alpha ↔ x ∈ s.cut alpha ∧ alpha ≤ t.membership x := by
  rw [mem_cut_iff, mem_cut_iff, keys_join, and_assoc]
  refine and_congr_right fun hx => ?_
  rw [membership_join hx]
  exact Degree.le_meet_iff (hs.membership x) (ht.membership x)

/-- At any threshold the elements of a union are those of the left set whose degree in either set
reaches the threshold. -/
theorem mem_cut_union_iff :
    x ∈ (join .or s t).cut alpha ↔
      x ∈ s.cut alpha ∨ x ∈ s.degrees.keys ∧ alpha ≤ t.membership x := by
  rw [mem_cut_iff, mem_cut_iff, keys_join, ← and_or_left]
  refine and_congr_right fun hx => ?_
  rw [membership_join hx]
  exact Degree.le_join_iff (hs.membership x) (ht.membership x)

end Operations

/-- **Cuts respect the operations on sets.**  At a positive threshold the cut of an intersection is
the intersection of the cuts, and the cut of a union adds to the left set's cut those elements of
the right set's that the left set lists.  At any thresholds the cut at the greater one is part of
the cut at the smaller one. -/
theorem cuts_respect_operations (s t : FuzzySet) (hs : s.Defined) (ht : t.Defined) :
    (∀ alpha : Degree, 0.0 < alpha →
      (∃ r, s.perform "intersection" (some t) = .ok r ∧ r.cut alpha = s.cut alpha ∩ t.cut alpha) ∧
      ∃ r, s.perform "union" (some t) = .ok r ∧
        r.cut alpha = s.cut alpha ∪ (t.cut alpha).filter fun x => s.contains x) ∧
    ∀ alpha beta : Degree, alpha ≤ beta → s.cut beta ⊆ s.cut alpha := by
  refine ⟨fun alpha halpha => ⟨⟨_, rfl, ?_⟩, ⟨_, rfl, ?_⟩⟩, fun alpha beta => s.cut_subset_cut⟩
  · ext x
    rw [mem_cut_intersection_iff hs ht, Finset.mem_inter, mem_cut_iff_of_pos (s := t) halpha]
  · ext x
    have hlisted : s.contains x = true ↔ x ∈ s.degrees.keys := s.degrees.contains_iff x
    rw [mem_cut_union_iff hs ht, Finset.mem_union, Finset.mem_filter, hlisted,
      mem_cut_iff_of_pos (s := t) halpha, and_comm (a := alpha ≤ t.membership x)]

/-- Elements of one set or of both, a negative degree, and a degree that equals the threshold. -/
theorem cuts_respect_operations_at_half :
    let s := ofList [("a", 0.25), ("b", -0.5), ("c", 0.5)]
    let t := ofList [("c", 0.75), ("d", 1.0), ("a", 0.5)]
    (s.Defined ∧ t.Defined ∧ (0.0 : Degree) < 0.5) ∧
      (∃ r, s.perform "intersection" (some t) = .ok r ∧ r.cut 0.5 = {"c"}) ∧
      (∃ r, s.perform "union" (some t) = .ok r ∧ r.cut 0.5 = {"a", "c"}) ∧
      s.cut 0.5 ⊆ s.cut (-0.5) := by
  intro s t
  have hs : s.Defined := by decide
  have ht : t.Defined := by decide
  have hpos : (0.0 : Degree) < 0.5 := by decide
  obtain ⟨hoperations, hmono⟩ := cuts_respect_operations s t hs ht
  obtain ⟨⟨r, hr, hinter⟩, r', hr', hunion⟩ := hoperations 0.5 hpos
  refine ⟨⟨hs, ht, hpos⟩, ⟨r, hr, hinter.trans ?_⟩, ⟨r', hr', hunion.trans ?_⟩, ?_⟩
  · decide
  · decide
  · exact hmono (-0.5) 0.5 (by decide)

end FuzzyGates.FuzzySet
