import FuzzyGates.Proofs.FuzzySet.Cuts

/-!
# Equality of fuzzy sets

Two sets are equal if they list the same elements with numerically equal degrees.  The order in
which the elements were listed plays no part in it, nor does the sign of a zero, and neither shows
in anything else that is read off a set.  Comparing goes through the elements of one set only; that
the other has no further ones is seen from their numbers, as no element is listed twice.

* `same_iff`, `Alike`, `same_iff_alike` — what comparing finds out; sets that are the same but for
  the order of elements and the signs of zeros.
* `Alike.complement`, `Alike.join`, `agree_perform` — the operations do not tell such sets apart.
* `SamePairs`, `perm_map_of_same` — equal sets have the same pairs; hence `hash_eq_of_same`.
* **`equality_is_sound`** — what equality is, that it is an equivalence, and what equal sets have in
  common.
-/

namespace FuzzyGates.FuzzySet

variable {s t : FuzzySet}

/-! ### What comparing finds out -/

theorem toList_eq_map_keys (s : FuzzySet) :
    s.toList = s.degrees.keys.map fun x => (x, s.membership x) := by
  have hself : s.toList = s.toList.map id := (List.map_id _).symm
  unfold OrderedMap.keys
  rw [List.map_map]
  refine hself.trans (List.map_congr_left fun p hp => ?_)
  exact Prod.ext rfl (mem_toList_iff.mp hp).2.symm

theorem same_eq (s t : FuzzySet) : s.same t = (s.size == t.size && s.degrees.keys.all fun x =>
    (t.degrees.get? x).any fun y => s.membership x == y) := by
  unfold same
  rw [toList_eq_map_keys, List.all_map]
  congr 2
  funext x
  dsimp only [Function.comp_apply]
  cases t.degrees.get? x <;> rfl

/-- **Equal sets list the same elements with numerically equal degrees**, and no other sets are
equal. -/
theorem same_iff : s.same t = true ↔
    (∀ x, x ∈ s.degrees.keys ↔ x ∈ t.degrees.keys) ∧
      ∀ x ∈ s.degrees.keys, (s.membership x == t.membership x) = true := by
  have hfound : ∀ x, ((t.degrees.get? x).any fun y => s.membership x == y) = true ↔
      x ∈ t.degrees.keys ∧ (s.membership x == t.membership x) = true := by
    intro x
    by_cases ht : x ∈ t.degrees.keys
    · simp [get?_eq_membership ht, ht]
    · simp [OrderedMap.get?_eq_none_iff.mpr ht, ht]
  rw [same_eq, Bool.and_eq_true, beq_iff_eq, List.all_eq_true]
  simp only [hfound]
  constructor
  · rintro ⟨hsize, hlisted⟩
    exact ⟨OrderedMap.mem_keys_iff_of_size_eq hsize fun x hx => (hlisted x hx).1,
      fun x hx => (hlisted x hx).2⟩
  · rintro ⟨hkeys, hdegrees⟩
    exact ⟨OrderedMap.size_eq_of_mem_keys_iff hkeys, fun x hx => ⟨(hkeys x).mp hx, hdegrees x hx⟩⟩

/-- The sets list the same elements with degrees that are alike. -/
structure Alike (s t : FuzzySet) : Prop where
  mem_keys_iff : ∀ x, x ∈ s.degrees.keys ↔ x ∈ t.degrees.keys
  membership : ∀ x, (s.membership x).Alike (t.membership x)

/-- Whether a set is without undefined degrees is seen from the degrees of all elements, listed or
not. -/
theorem defined_iff : s.Defined ↔ ∀ x, (s.membership x).Defined := by
  refine ⟨Defined.membership, fun h p hp => ?_⟩
  rw [← (mem_toList_iff.mp hp).2]
  exact h p.1

theorem same_iff_alike : s.same t = true ↔ s.Defined ∧ s.Alike t := by
  rw [same_iff]
  constructor
  · rintro ⟨hkeys, hdegrees⟩
    have hlisted : ∀ x ∈ s.degrees.keys, (s.membership x).Defined :=
      fun x hx => (Degree.beq_iff.mp (hdegrees x hx)).1.1
    refine ⟨fun p hp => ?_, hkeys, fun x => ?_⟩
    · obtain ⟨hx, hd⟩ := mem_toList_iff.mp hp
      exact hd ▸ hlisted p.1 hx
    · by_cases hx : x ∈ s.degrees.keys
      · exact Degree.alike_of_beq (hdegrees x hx)
      · rw [membership_of_not_mem hx, membership_of_not_mem ((hkeys x).not.mp hx)]
        exact .refl 0.0
  · rintro ⟨hs, halike⟩
    exact ⟨halike.mem_keys_iff, fun x _ => (halike.membership x).beq (hs.membership x)⟩

namespace Alike

theorem refl (s : FuzzySet) : s.Alike s := ⟨fun _ => Iff.rfl, fun _ => .refl _⟩

theorem symm (h : s.Alike t) : t.Alike s :=
  ⟨fun x => (h.mem_keys_iff x).symm, fun x => (h.membership x).symm⟩

theorem trans {r : FuzzySet} (h : s.Alike t) (h' : t.Alike r) : s.Alike r :=
  ⟨fun x => (h.mem_keys_iff x).trans (h'.mem_keys_iff x),
    fun x => (h.membership x).trans (h'.membership x)⟩

theorem defined_iff (h : s.Alike t) : s.Defined ↔ t.Defined := by
  rw [FuzzySet.defined_iff, FuzzySet.defined_iff]
  exact forall_congr' fun x => (h.membership x).defined_iff

theorem contains_eq (h : s.Alike t) (x : String) : s.contains x = t.contains x := by
  rw [Bool.eq_iff_iff]
  exact (s.degrees.contains_iff x).trans
    ((h.mem_keys_iff x).trans (t.degrees.contains_iff x).symm)

theorem cut_eq (h : s.Alike t) (alpha : Degree) : s.cut alpha = t.cut alpha := by
  ext x
  rw [mem_cut_iff, mem_cut_iff, h.mem_keys_iff, (Degree.Alike.refl alpha).le_congr (h.membership x)]

/-! ### Operations -/

/-- Changing degrees element by element leads to sets that are alike again if it does so for every
degree. -/
theorem mapEntries (h : s.Alike t) {f g : String → Degree → Degree}
    (hfg : ∀ x a b, a.Alike b → (f x a).Alike (g x b)) :
    Alike ⟨s.degrees.mapEntries f⟩ ⟨t.degrees.mapEntries g⟩ := by
  refine ⟨fun x => ?_, fun x => ?_⟩
  · rw [OrderedMap.keys_mapEntries, OrderedMap.keys_mapEntries]
    exact h.mem_keys_iff x
  · by_cases hx : x ∈ s.degrees.keys
    · rw [membership_mapEntries hx, membership_mapEntries ((h.mem_keys_iff x).mp hx)]
      exact hfg x _ _ (h.membership x)
    · have hs : (⟨s.degrees.mapEntries f⟩ : FuzzySet).membership x = 0.0 :=
        membership_of_not_mem (by rwa [OrderedMap.keys_mapEntries])
      have ht : (⟨t.degrees.mapEntries g⟩ : FuzzySet).membership x = 0.0 :=
        membership_of_not_mem (by rwa [OrderedMap.keys_mapEntries, ← h.mem_keys_iff])
      rw [hs, ht]
      exact .refl 0.0

theorem complement (h : s.Alike t) : s.complement.Alike t.complement :=
  h.mapEntries fun _ _ _ halike => halike.complement

theorem join (c : Connective) {u v : FuzzySet} (h : s.Alike t) (h' : u.Alike v) :
    (FuzzySet.join c s u).Alike (FuzzySet.join c t v) :=
  h.mapEntries fun x _ _ halike => c.alike_apply halike (h'.membership x)

end Alike

/-- Two operations fail alike, or have results that are equal unless they have undefined degrees. -/
def Agree : Except ChoiceFault FuzzySet → Except ChoiceFault FuzzySet → Prop
  | .error f, .error g => f = g
  | .ok r, .ok r' => (r.Defined ↔ r'.Defined) ∧ (r.Defined → r.same r' = true)
  | _, _ => False

theorem Alike.agree (h : s.Alike t) : Agree (.ok s) (.ok t) :=
  ⟨h.defined_iff, fun hs => same_iff_alike.mpr ⟨hs, h⟩⟩

/-- Operations do not tell equal sets apart, on the left or on the right. -/
theorem agree_perform (hst : s.Alike t) (operation : String) {u v : Option FuzzySet}
    (huv : Option.Rel Alike u v) : Agree (s.perform operation u) (t.perform operation v) := by
  unfold perform
  cases SetOperation.ofName? operation with
  | none => rfl
  | some o =>
      cases o with
      | complement => exact hst.complement.agree
      | join c =>
          cases huv with
          | none => rfl
          | some halike => exact (hst.join c halike).agree

/-! ### Pairs and hashes -/

/-- Two lists have the same pairs of an element and a degree, up to numeric equality of the
degrees. -/
def SamePairs (l m : List (String × Degree)) : Prop :=
  (∀ p ∈ l, ∃ q ∈ m, p.1 = q.1 ∧ (p.2 == q.2) = true) ∧
    ∀ q ∈ m, ∃ p ∈ l, p.1 = q.1 ∧ (p.2 == q.2) = true

theorem samePairs_of_same (h : s.same t = true) : SamePairs s.toList t.toList := by
  obtain ⟨hkeys, hdegrees⟩ := same_iff.mp h
  rw [toList_eq_map_keys, toList_eq_map_keys]
  constructor
  · intro p hp
    obtain ⟨x, hx, rfl⟩ := List.mem_map.mp hp
    exact ⟨_, List.mem_map_of_mem ((hkeys x).mp hx), rfl, hdegrees x hx⟩
  · intro q hq
    obtain ⟨x, hx, rfl⟩ := List.mem_map.mp hq
    have hs : x ∈ s.degrees.keys := (hkeys x).mpr hx
    exact ⟨_, List.mem_map_of_mem hs, rfl, hdegrees x hs⟩

/-- What is made of the pairs of equal sets one by one is the same up to order, if it does not
depend on the signs of zeros. -/
theorem perm_map_of_same {γ : Type} {f : String × Degree → γ}
    (hf : ∀ x d e, (d == e) = true → f (x, d) = f (x, e)) (h : s.same t = true) :
    (s.toList.map f).Perm (t.toList.map f) := by
  obtain ⟨hkeys, hdegrees⟩ := same_iff.mp h
  have hperm : s.degrees.keys.Perm t.degrees.keys :=
    (List.perm_ext_iff_of_nodup s.degrees.nodup_keys t.degrees.nodup_keys).mpr hkeys
  rw [toList_eq_map_keys s, toList_eq_map_keys t, List.map_map, List.map_map]
  have hmap : s.degrees.keys.map (f ∘ fun x => (x, s.membership x)) =
      s.degrees.keys.map (f ∘ fun x => (x, t.membership x)) :=
    List.map_congr_left fun x hx => hf x _ _ (hdegrees x hx)
  rw [hmap]
  exact hperm.map _

theorem degreeHash_eq {d e : Degree} (h : (d == e) = true) : degreeHash d = degreeHash e := by
  have halike : d.Alike e := Degree.alike_of_beq h
  have hzero : (d == 0.0) = (e == 0.0) := by
    rw [Bool.eq_iff_iff, Degree.beq_iff, Degree.beq_iff, halike.defined_iff, halike.value_eq]
  unfold degreeHash
  rw [hzero]
  split
  · rfl
  · next hnonzero =>
      rcases Degree.alike_iff_parts.mp halike with hparts | ⟨-, sign, -, he⟩
      · rw [Degree.parts_injective hparts]
      · refine absurd (Degree.beq_iff.mpr ⟨⟨?_, Degree.isNumber_zero.defined⟩, ?_⟩) hnonzero
        · simp [Degree.Defined, he]
        · rw [Degree.value_zero, Degree.value, he]
          rfl

theorem hash_eq_of_same (h : s.same t = true) : s.hash = t.hash := by
  let term := fun p : String × Degree => mixHash (Hashable.hash p.1) (degreeHash p.2)
  have hterm : ∀ x d e, (d == e) = true → term (x, d) = term (x, e) :=
    fun x d e hde => congrArg (mixHash (Hashable.hash x)) (degreeHash_eq hde)
  have hhash : ∀ r : FuzzySet, r.hash = (r.toList.map term).foldl (· + ·) 0 :=
    fun r => List.foldl_map.symm
  rw [hhash, hhash]
  refine (perm_map_of_same hterm h).foldl_eq' (fun x _ y _ z => ?_) 0
  rw [UInt64.add_assoc, UInt64.add_comm x y, ← UInt64.add_assoc]

/-! ### Equal sets -/

/-- What two sets have in common that cannot be told apart. -/
structure Interchangeable (s t : FuzzySet) : Prop where
  size : s.size = t.size
  contains : ∀ x, s.contains x = t.contains x
  membership : ∀ x, (s.membership x == t.membership x) = true
  cut : ∀ alpha, s.cut alpha = t.cut alpha
  hash : s.hash = t.hash
  /-- The same holds of every other hash that sees the pairs only, up to numeric equality. -/
  hashes : ∀ {ι : Type} (f : List (String × Degree) → ι),
    (∀ l m, SamePairs l m → f l = f m) → f s.toList = f t.toList
  perform : ∀ operation {u v : Option FuzzySet}, Option.Rel (fun u v => u.same v = true) u v →
    Agree (s.perform operation u) (t.perform operation v)

theorem interchangeable_of_same (h : s.same t = true) : s.Interchangeable t := by
  obtain ⟨hs, halike⟩ := same_iff_alike.mp h
  constructor
  case size => exact OrderedMap.size_eq_of_mem_keys_iff halike.mem_keys_iff
  case contains => exact halike.contains_eq
  case membership => exact fun x => (halike.membership x).beq (hs.membership x)
  case cut => exact halike.cut_eq
  case hash => exact hash_eq_of_same h
  case hashes => exact fun f hf => hf _ _ (samePairs_of_same h)
  case perform =>
    intro operation u v huv
    refine agree_perform halike operation ?_
    cases huv with
    | none => exact .none
    | some hsame => exact .some (same_iff_alike.mp hsame).2

/-- The degree that a list gives an element last. -/
def lastDegree? (l : List (String × Degree)) (x : String) : Option Degree :=
  OrderedMap.lookup x l.reverse

theorem get?_ofList (l : List (String × Degree)) (x : String) :
    (ofList l).degrees.get? x = lastDegree? l x :=
  OrderedMap.get?_ofList l x

theorem rel_get?_iff {r : Degree → Degree → Prop} {x : String} :
    Option.Rel r (s.degrees.get? x) (t.degrees.get? x) ↔
      (x ∈ s.degrees.keys ↔ x ∈ t.degrees.keys) ∧
        (x ∈ s.degrees.keys → r (s.membership x) (t.membership x)) := by
  by_cases hs : x ∈ s.degrees.keys <;> by_cases ht : x ∈ t.degrees.keys
  · simp [get?_eq_membership hs, get?_eq_membership ht, hs, ht]
  · simp [get?_eq_membership hs, OrderedMap.get?_eq_none_iff.mpr ht, hs, ht]
  · simp [OrderedMap.get?_eq_none_iff.mpr hs, get?_eq_membership ht, hs, ht]
  · simp [OrderedMap.get?_eq_none_iff.mpr hs, OrderedMap.get?_eq_none_iff.mpr ht, hs, ht]

/-- **Equality of fuzzy sets is sound.**  Sets made of lists are equal exactly if the lists give the
same elements a degree, the last ones being numerically equal.  Among sets without undefined degrees
equality is an equivalence, and equal sets cannot be told apart. -/
theorem equality_is_sound :
    (∀ l m : List (String × Degree), (ofList l).Defined → (ofList m).Defined →
      ((ofList l).same (ofList m) = true ↔
        ∀ x, Option.Rel (fun d e => (d == e) = true) (lastDegree? l x) (lastDegree? m x))) ∧
    Equivalence (fun s t : {s : FuzzySet // s.Defined} => s.1.same t.1 = true) ∧
    ∀ s t : FuzzySet, s.Defined → t.Defined → s.same t = true → s.Interchangeable t := by
  refine ⟨fun l m _ _ => ?_, ⟨fun s => ?_, fun {s t} h => ?_, fun {s t r} h h' => ?_⟩,
    fun s t _ _ => interchangeable_of_same⟩
  · simp only [← get?_ofList, rel_get?_iff, forall_and]
    exact same_iff
  · exact same_iff_alike.mpr ⟨s.2, .refl s.1⟩
  · exact same_iff_alike.mpr ⟨t.2, (same_iff_alike.mp h).2.symm⟩
  · exact same_iff_alike.mpr ⟨s.2, (same_iff_alike.mp h).2.trans (same_iff_alike.mp h').2⟩

/-- A repeated element, another order, and zeros of either sign on both sides of a product. -/
theorem equality_is_sound_signed_zeros :
    let l : List (String × Degree) := [("a", 0.5), ("b", 0.0), ("a", 0.25)]
    let m : List (String × Degree) := [("b", -0.0), ("a", 0.25)]
    let u := ofList [("b", 1.0), ("c", 0.0)]
    let v := ofList [("c", -0.0), ("b", 1.0)]
    ((ofList l).Defined ∧ (ofList m).Defined ∧ (ofList l).same (ofList m) = true) ∧
      (∀ x, Option.Rel (fun d e => (d == e) = true) (lastDegree? l x) (lastDegree? m x)) ∧
      (ofList l).hash = (ofList m).hash ∧
      Agree ((ofList l).perform "multi" (some u)) ((ofList m).perform "multi" (some v)) := by
  intro l m u v
  obtain ⟨hlists, -, hequal⟩ := equality_is_sound
  have hl : (ofList l).Defined := by decide
  have hm : (ofList m).Defined := by decide
  have hlm : (ofList l).same (ofList m) = true := by decide
  have huv : u.same v = true := by decide
  have hsame := hequal _ _ hl hm hlm
  exact ⟨⟨hl, hm, hlm⟩, (hlists l m hl hm).mp hlm, hsame.hash, hsame.perform "multi" (.some huv)⟩

end FuzzyGates.FuzzySet
