import Mathlib.Data.List.Perm.Subperm
import FuzzyGates.OrderedMap

/-!
# Building ordered maps again

A map is determined by its entries, and binding the entries of a map one after the other,
in their order, builds the same map.  This holds because no key is bound twice, so each
one goes to the end.

* `get?_eq_some_iff` — what is bound to a key is the entry of the key.
* `size_eq_of_mem_keys_iff`, `mem_keys_iff_of_size_eq` — the size of a map and its keys.
* `nodup_keys_filterMap` — items with different keys have pairs with different keys.
* `entries_foldl_insert` — pairs with new and different keys are appended one by one.
* **`ofList_entries`** — binding the entries of a map builds the map.
* `get?_ofList` — what a key was bound to last.
* `mem_keys_ofList`, `entries_ofList_map` — the keys that have been bound, and their names.
* `foldl_insert_absent` — binding only the pairs whose keys are absent.
-/

namespace FuzzyGates

/-- The members of a longer list in the order of their first occurrence. -/
theorem eraseDups_concat {α : Type} [DecidableEq α] (l : List α) (a : α) :
    (l ++ [a]).eraseDups = if a ∈ l then l.eraseDups else l.eraseDups ++ [a] := by
  rw [List.eraseDups_append]
  by_cases h : a ∈ l <;> simp [List.removeAll, List.eraseDups_cons, h]

namespace OrderedMap

variable {κ α β : Type}

theorem mem_keys_iff {m : OrderedMap κ α} {k : κ} : k ∈ m.keys ↔ ∃ v, (k, v) ∈ m.entries := by
  simp [keys]

/-- Items with different keys have pairs with different keys. -/
theorem nodup_keys_filterMap {key : β → κ} {pair? : β → Option (κ × α)}
    (hkey : ∀ b, ∀ p ∈ pair? b, p.1 = key b) {l : List β} (hl : (l.map key).Nodup) :
    ((l.filterMap pair?).map Prod.fst).Nodup := by
  unfold List.Nodup at *
  rw [List.pairwise_map, List.pairwise_filterMap]
  rw [List.pairwise_map] at hl
  refine hl.imp fun hne p hp q hq heq => hne ?_
  exact (hkey _ p hp).symm.trans (heq.trans (hkey _ q hq))

/-- Two maps with the same keys, in whatever order, have as many. -/
theorem size_eq_of_mem_keys_iff {m : OrderedMap κ α} {n : OrderedMap κ β}
    (h : ∀ k, k ∈ m.keys ↔ k ∈ n.keys) : m.size = n.size := by
  have hperm : m.keys.Perm n.keys := (List.perm_ext_iff_of_nodup m.nodup_keys n.nodup_keys).mpr h
  have hlength := hperm.length_eq
  unfold keys at hlength
  rw [List.length_map, List.length_map] at hlength
  exact hlength

/-- A map with all the keys of another one and no more of them has no other keys. -/
theorem mem_keys_iff_of_size_eq {m : OrderedMap κ α} {n : OrderedMap κ β}
    (hsize : m.size = n.size) (hsub : m.keys ⊆ n.keys) (k : κ) : k ∈ m.keys ↔ k ∈ n.keys := by
  have hlength : n.keys.length ≤ m.keys.length := by
    unfold size at hsize
    simp [keys, hsize]
  have hperm : m.keys.Perm n.keys :=
    (List.subperm_of_subset m.nodup_keys hsub).perm_of_length_le hlength
  exact hperm.mem_iff

variable [DecidableEq κ]

theorem lookup_eq_some_iff {l : List (κ × α)} (h : (l.map Prod.fst).Nodup) {k : κ} {v : α} :
    lookup k l = some v ↔ (k, v) ∈ l := by
  induction l with
  | nil => simp [lookup]
  | cons p rest ih =>
      obtain ⟨j, u⟩ := p
      rw [List.map_cons, List.nodup_cons] at h
      unfold lookup
      by_cases hj : j = k
      · subst hj
        have habsent : (j, v) ∉ rest := fun hmem => h.1 (List.mem_map.mpr ⟨_, hmem, rfl⟩)
        simp [habsent, eq_comm]
      · have hk : k ≠ j := fun hkj => hj hkj.symm
        simp [hj, hk, ih h.2]

theorem lookup_eq_none_iff {l : List (κ × α)} {k : κ} :
    lookup k l = none ↔ k ∉ l.map Prod.fst := by
  induction l with
  | nil => simp [lookup]
  | cons p rest ih =>
      by_cases hp : p.1 = k
      · simp [lookup, hp]
      · have hk : k ≠ p.1 := fun h => hp h.symm
        simpa [lookup, hp, hk] using ih

/-- What is bound to a key is the entry of the key. -/
theorem get?_eq_some_iff {m : OrderedMap κ α} {k : κ} {v : α} :
    m.get? k = some v ↔ (k, v) ∈ m.entries :=
  lookup_eq_some_iff m.nodup_keys

theorem get?_eq_none_iff {m : OrderedMap κ α} {k : κ} : m.get? k = none ↔ k ∉ m.keys :=
  lookup_eq_none_iff

theorem size_eq_of_get?_eq {m n : OrderedMap κ α} (h : ∀ k, m.get? k = n.get? k) :
    m.size = n.size :=
  size_eq_of_mem_keys_iff fun k => by rw [← get?_isSome_iff, ← get?_isSome_iff, h k]

theorem upsert_of_not_mem {k : κ} {v : α} {l : List (κ × α)} (h : k ∉ l.map Prod.fst) :
    upsert k v l = l ++ [(k, v)] := by
  induction l with
  | nil => rfl
  | cons p rest ih =>
      rw [List.map_cons, List.mem_cons, not_or] at h
      have hk : p.1 ≠ k := fun hpk => h.1 hpk.symm
      unfold upsert
      rw [if_neg hk, ih h.2]
      rfl

/-- Binding a key a second time replaces what was bound first. -/
theorem upsert_upsert (k : κ) (u v : α) (l : List (κ × α)) :
    upsert k v (upsert k u l) = upsert k v l := by
  induction l with
  | nil => simp [upsert]
  | cons p rest ih =>
      by_cases hk : p.1 = k
      · simp [upsert, hk]
      · simp [upsert, hk, ih]

theorem insert_insert (m : OrderedMap κ α) (k : κ) (u v : α) :
    (m.insert k u).insert k v = m.insert k v :=
  ext (upsert_upsert k u v m.entries)

theorem entries_insert_of_not_mem {m : OrderedMap κ α} {k : κ} (v : α) (h : k ∉ m.keys) :
    (m.insert k v).entries = m.entries ++ [(k, v)] :=
  upsert_of_not_mem h

theorem keys_insert_of_not_mem {m : OrderedMap κ α} {k : κ} (v : α) (h : k ∉ m.keys) :
    (m.insert k v).keys = m.keys ++ [k] := by
  rw [keys_insert, if_neg h]

theorem mem_keys_insert {m : OrderedMap κ α} {j k : κ} {v : α} :
    j ∈ (m.insert k v).keys ↔ j ∈ m.keys ∨ j = k := by
  rw [keys_insert]
  split
  · next hk => exact ⟨.inl, fun h => h.elim id fun heq => heq ▸ hk⟩
  · rw [List.mem_append, List.mem_singleton]

theorem not_mem_keys_insert {m : OrderedMap κ α} {j k : κ} (v : α) (hm : j ∉ m.keys)
    (hk : j ≠ k) : j ∉ (m.insert k v).keys := by
  simp [mem_keys_insert, hm, hk]

theorem mem_upsert {k : κ} {v : α} {l : List (κ × α)} {p : κ × α} (h : p ∈ upsert k v l) :
    p = (k, v) ∨ p ∈ l := by
  induction l with
  | nil => exact .inl (by simpa [upsert] using h)
  | cons q rest ih =>
      unfold upsert at h
      split at h
      · next hq =>
          rcases List.mem_cons.mp h with rfl | hrest
          · exact .inl (by rw [hq])
          · exact .inr (List.mem_cons_of_mem _ hrest)
      · rcases List.mem_cons.mp h with rfl | hrest
        · exact .inr List.mem_cons_self
        · exact (ih hrest).imp id (List.mem_cons_of_mem _)

theorem entries_insert_ne_nil (m : OrderedMap κ α) (k : κ) (v : α) :
    (m.insert k v).entries ≠ [] := by
  intro h
  have hkey : (m.insert k v).get? k = none := by
    unfold get?
    rw [h]
    rfl
  simp at hkey

/-- Binding pairs with new and different keys appends them. -/
theorem entries_foldl_insert {l : List (κ × α)} (hl : (l.map Prod.fst).Nodup)
    {m : OrderedMap κ α} (hm : ∀ p ∈ l, p.1 ∉ m.keys) :
    (l.foldl (fun m p => m.insert p.1 p.2) m).entries = m.entries ++ l := by
  induction l generalizing m with
  | nil => exact (List.append_nil _).symm
  | cons p rest ih =>
      rw [List.map_cons, List.nodup_cons] at hl
      have hrest : ∀ q ∈ rest, q.1 ∉ (m.insert p.1 p.2).keys := by
        intro q hq
        refine not_mem_keys_insert p.2 (hm q (List.mem_cons_of_mem _ hq)) fun heq => hl.1 ?_
        exact heq ▸ List.mem_map_of_mem hq
      rw [List.foldl_cons, ih hl.2 hrest, entries_insert_of_not_mem p.2 (hm p List.mem_cons_self),
        List.append_assoc]
      rfl

/-- Binding pairs with different keys builds the map with these entries. -/
theorem entries_ofList {l : List (κ × α)} (hl : (l.map Prod.fst).Nodup) :
    (ofList l).entries = l :=
  entries_foldl_insert hl fun _ _ => List.not_mem_nil

/-- **Binding the entries of a map one after the other builds the map.** -/
theorem ofList_entries (m : OrderedMap κ α) : ofList m.entries = m :=
  ext (entries_ofList m.nodup_keys)

theorem mem_keys_foldl_insert {l : List (κ × α)} {m : OrderedMap κ α} {k : κ} :
    k ∈ (l.foldl (fun m p => m.insert p.1 p.2) m).keys ↔ k ∈ m.keys ∨ k ∈ l.map Prod.fst := by
  induction l generalizing m with
  | nil => simp
  | cons p rest ih =>
      rw [List.foldl_cons, ih, mem_keys_insert, List.map_cons, List.mem_cons, or_assoc]

/-- What a key is bound to is what it was bound to last. -/
theorem get?_ofList (l : List (κ × α)) (k : κ) : (ofList l).get? k = lookup k l.reverse := by
  have hfold : ∀ l : List (κ × α),
      (l.foldr (fun p (m : OrderedMap κ α) => m.insert p.1 p.2) ∅).get? k = lookup k l := by
    intro l
    induction l with
    | nil => rfl
    | cons p rest ih =>
        rw [List.foldr_cons, get?_insert, ih]
        rfl
  unfold ofList
  rw [← hfold l.reverse, List.foldr_reverse]

/-- The keys of a map are those that have been bound. -/
theorem mem_keys_ofList {l : List (κ × α)} {k : κ} : k ∈ (ofList l).keys ↔ k ∈ l.map Prod.fst := by
  rw [ofList, mem_keys_foldl_insert]
  simp

section Renaming

variable {ι : Type} [DecidableEq ι] {f : κ → ι} (hf : Function.Injective f)

include hf

theorem upsert_map (k : κ) (v : α) (l : List (κ × α)) :
    upsert (f k) v (l.map fun p => (f p.1, p.2)) = (upsert k v l).map fun p => (f p.1, p.2) := by
  induction l with
  | nil => rfl
  | cons p rest ih =>
      by_cases hp : p.1 = k
      · simp [upsert, hp]
      · have hne : f p.1 ≠ f k := fun heq => hp (hf heq)
        simp [upsert, hp, hne, ih]

theorem entries_foldl_insert_map (l : List (κ × α)) {m : OrderedMap κ α} {n : OrderedMap ι α}
    (h : n.entries = m.entries.map fun p => (f p.1, p.2)) :
    ((l.map fun p => (f p.1, p.2)).foldl (fun n p => n.insert p.1 p.2) n).entries =
      (l.foldl (fun m p => m.insert p.1 p.2) m).entries.map fun p => (f p.1, p.2) := by
  induction l generalizing m n with
  | nil => exact h
  | cons p rest ih =>
      refine ih ?_
      show upsert (f p.1) p.2 n.entries = _
      rw [h, upsert_map hf]
      rfl

/-- Keys may be renamed before they are bound or after that. -/
theorem entries_ofList_map (l : List (κ × α)) :
    (ofList (l.map fun p => (f p.1, p.2))).entries =
      (ofList l).entries.map fun p => (f p.1, p.2) :=
  entries_foldl_insert_map hf l rfl

end Renaming

/-- Binding only what has no value yet appends it, in its order. -/
theorem foldl_insert_absent (key : β → κ) (value : β → α) (l : List β) (m : OrderedMap κ α)
    (hl : (l.map key).Nodup) :
    (l.foldl (fun m b => if m.contains (key b) then m else m.insert (key b) (value b)) m).entries =
      m.entries ++ (l.filter fun b => decide (key b ∉ m.keys)).map fun b => (key b, value b) := by
  induction l generalizing m with
  | nil => simp
  | cons b rest ih =>
      rw [List.map_cons, List.nodup_cons] at hl
      rw [List.foldl_cons, ih _ hl.2]
      by_cases hb : key b ∈ m.keys
      · simp [(contains_iff m (key b)).mpr hb, hb]
      · have hcontains : ¬ m.contains (key b) = true := fun h => hb ((contains_iff m (key b)).mp h)
        -- the new key is not the key of anything that follows
        have hrest : (rest.filter fun c => decide (key c ∉ (m.insert (key b) (value b)).keys)) =
            rest.filter fun c => decide (key c ∉ m.keys) := by
          refine List.filter_congr fun c hc => ?_
          have hne : key c ≠ key b := fun h => hl.1 (h ▸ List.mem_map_of_mem hc)
          rw [keys_insert_of_not_mem _ hb]
          simp [hne]
        rw [if_neg hcontains, hrest, entries_insert_of_not_mem _ hb, List.filter_cons,
          if_pos (decide_eq_true hb), List.append_assoc]
        rfl

end OrderedMap

end FuzzyGates
