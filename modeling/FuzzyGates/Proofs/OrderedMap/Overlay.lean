import Mathlib.Data.List.Basic
import FuzzyGates.Proofs.OrderedMap

/-!
# One map laid over another

Laying a map over another one binds its entries there, one after the other.  A key that is bound
already keeps its place, where its value is replaced or combined with the new one.  The other keys
follow in the order of the map on top.

* `overlayWith`, `overlay` — the map that results, written down entry by entry.
* `get?_overlayWith`, `keys_overlayWith` — what it binds, and in which order.
* `eq_of_get?_eq` — a map is given by its keys in order and what is bound to each.
* **`foldl_mergeAt`**, `foldl_insert` — binding the entries one after the other leads there.
* `overlayWith_idem`, `overlay_idem` — laying a map over another one twice is doing it once.
-/

namespace FuzzyGates.OrderedMap

variable {κ α : Type} [DecidableEq κ]

/-- A map laid over another one.  The keys of the map below keep their places, and where both maps
bind a key the values are combined; the new keys follow in the order of the map on top. -/
def overlayWith (f : α → α → α) (m n : OrderedMap κ α) : OrderedMap κ α where
  entries :=
    (m.entries.map fun p => (p.1, (n.get? p.1).elim p.2 (f p.2))) ++
      n.entries.filter fun p => decide (p.1 ∉ m.keys)
  nodup_keys := by
    have hnew : ((n.entries.filter fun p => decide (p.1 ∉ m.keys)).map Prod.fst).Nodup :=
      n.nodup_keys.sublist (List.filter_sublist.map Prod.fst)
    rw [List.map_append, List.map_map, List.nodup_append]
    refine ⟨m.nodup_keys, hnew, ?_⟩
    rintro k hold j hj rfl
    obtain ⟨p, hp, rfl⟩ := List.mem_map.mp hj
    exact of_decide_eq_true (List.mem_filter.mp hp).2 hold

/-- A map laid over another one whose values it replaces. -/
def overlay (m n : OrderedMap κ α) : OrderedMap κ α := m.overlayWith (fun _ v => v) n

/-! ### Maps by their keys and lookups -/

theorem entries_eq_filterMap_keys (m : OrderedMap κ α) :
    m.entries = m.keys.filterMap fun k => (m.get? k).map fun v => (k, v) := by
  have hself : m.entries = m.entries.filterMap some := (List.filterMap_some ..).symm
  unfold keys
  rw [List.filterMap_map]
  refine hself.trans (List.filterMap_congr fun p hp => ?_)
  have hget : m.get? p.1 = some p.2 := get?_eq_some_iff.mpr hp
  simp [hget]

/-- A map is given by its keys in order and what is bound to each of them. -/
theorem eq_of_get?_eq {m n : OrderedMap κ α} (hkeys : m.keys = n.keys)
    (h : ∀ k, m.get? k = n.get? k) : m = n := by
  refine ext ?_
  rw [entries_eq_filterMap_keys m, entries_eq_filterMap_keys n, hkeys]
  simp only [h]

theorem lookup_append (k : κ) (l l' : List (κ × α)) :
    lookup k (l ++ l') = (lookup k l).or (lookup k l') := by
  induction l with
  | nil => rfl
  | cons p rest ih =>
      by_cases hp : p.1 = k
      · simp [lookup, hp]
      · simp [lookup, hp, ih]

/-- Leaving out the pairs of other keys does not change a lookup. -/
theorem lookup_filter {q : κ → Bool} {k : κ} (hk : q k = true) (l : List (κ × α)) :
    lookup k (l.filter fun p => q p.1) = lookup k l := by
  induction l with
  | nil => rfl
  | cons p rest ih =>
      by_cases hp : p.1 = k
      · simp [lookup, hp, hk]
      · cases hq : q p.1 <;> simp [lookup, hp, hq, ih]

/-! ### What an overlay binds -/

theorem get?_overlayWith (f : α → α → α) (m n : OrderedMap κ α) (k : κ) :
    (m.overlayWith f n).get? k = Option.merge f (m.get? k) (n.get? k) := by
  have hbelow : lookup k (m.entries.map fun p => (p.1, (n.get? p.1).elim p.2 (f p.2))) =
      (m.get? k).map fun u => (n.get? k).elim u (f u) :=
    get?_mapEntries (fun j u => (n.get? j).elim u (f u)) m k
  show lookup k (_ ++ _) = _
  rw [lookup_append, hbelow]
  cases hm : m.get? k with
  | some u => cases n.get? k <;> rfl
  | none =>
      have hk : decide (k ∉ m.keys) = true := by simpa using get?_eq_none_iff.mp hm
      rw [lookup_filter (q := fun j => decide (j ∉ m.keys)) hk, Option.merge_none_left]
      rfl

theorem keys_overlayWith (f : α → α → α) (m n : OrderedMap κ α) :
    (m.overlayWith f n).keys = m.keys ++ n.keys.filter fun k => decide (k ∉ m.keys) := by
  show List.map Prod.fst (_ ++ _) = _
  rw [List.map_append, List.map_map]
  unfold keys
  rw [List.filter_map]
  rfl

theorem mem_keys_overlayWith {f : α → α → α} {m n : OrderedMap κ α} {k : κ} :
    k ∈ (m.overlayWith f n).keys ↔ k ∈ m.keys ∨ k ∈ n.keys := by
  rw [keys_overlayWith, List.mem_append, List.mem_filter, decide_eq_true_eq]
  by_cases hk : k ∈ m.keys <;> simp [hk]

/-- A map that holds already what is laid over it stays as it is. -/
theorem overlayWith_eq_self {f : α → α → α} {m n : OrderedMap κ α} (hkeys : n.keys ⊆ m.keys)
    (h : ∀ k u v, m.get? k = some u → n.get? k = some v → f u v = u) : m.overlayWith f n = m := by
  refine eq_of_get?_eq ?_ fun k => ?_
  · have hnone : n.keys.filter (fun k => decide (k ∉ m.keys)) = [] :=
      List.filter_eq_nil_iff.mpr fun k hk => by simpa using hkeys hk
    rw [keys_overlayWith, hnone, List.append_nil]
  · rw [get?_overlayWith]
    cases hm : m.get? k with
    | some u =>
        cases hn : n.get? k with
        | none => rfl
        | some v => exact congrArg some (h k u v hm hn)
    | none =>
        have hk : k ∉ n.keys := fun hmem => get?_eq_none_iff.mp hm (hkeys hmem)
        rw [get?_eq_none_iff.mpr hk]
        rfl

/-- Laying a map over another one twice is doing it once. -/
theorem overlayWith_idem {f : α → α → α} (hself : ∀ v, f v v = v)
    (htwice : ∀ u v, f (f u v) v = f u v) (m n : OrderedMap κ α) :
    (m.overlayWith f n).overlayWith f n = m.overlayWith f n := by
  refine overlayWith_eq_self (fun k hk => mem_keys_overlayWith.mpr (.inr hk)) fun k u v hu hv => ?_
  rw [get?_overlayWith, hv] at hu
  cases hm : m.get? k with
  | none =>
      rw [hm] at hu
      obtain rfl : v = u := Option.some.inj hu
      exact hself v
  | some w =>
      rw [hm] at hu
      obtain rfl : f w v = u := Option.some.inj hu
      exact htwice w v

theorem overlay_idem (m n : OrderedMap κ α) : (m.overlay n).overlay n = m.overlay n :=
  overlayWith_idem (f := fun _ v => v) (fun _ => rfl) (fun _ _ => rfl) m n

theorem overlay_self (m : OrderedMap κ α) : m.overlay m = m := by
  refine overlayWith_eq_self (fun _ hk => hk) fun k u v hu hv => ?_
  rw [hu] at hv
  cases hv
  rfl

theorem empty_overlayWith (f : α → α → α) (n : OrderedMap κ α) :
    (∅ : OrderedMap κ α).overlayWith f n = n := by
  refine eq_of_get?_eq ?_ fun k => ?_
  · simp [keys_overlayWith]
  · simp [get?_overlayWith]

/-! ### Binding the entries one after the other -/

/-- Bind a key, or combine the value that it has with a new one. -/
def mergeAt (f : α → α → α) (m : OrderedMap κ α) (k : κ) (v : α) : OrderedMap κ α :=
  m.insert k ((m.get? k).elim v fun u => f u v)

theorem get?_mergeAt_self (f : α → α → α) (m : OrderedMap κ α) (k : κ) (v : α) :
    (m.mergeAt f k v).get? k = Option.merge f (m.get? k) (some v) := by
  unfold mergeAt
  rw [get?_insert_self]
  cases m.get? k <;> rfl

theorem get?_mergeAt_of_ne (f : α → α → α) (m : OrderedMap κ α) {k j : κ} (v : α) (h : k ≠ j) :
    (m.mergeAt f k v).get? j = m.get? j :=
  m.get?_insert_of_ne _ h

theorem mem_keys_mergeAt {f : α → α → α} {m : OrderedMap κ α} {k j : κ} {v : α} :
    j ∈ (m.mergeAt f k v).keys ↔ j ∈ m.keys ∨ j = k := by
  unfold mergeAt
  rw [keys_insert]
  split
  · next hk => exact ⟨.inl, fun h => h.elim id fun heq => heq ▸ hk⟩
  · rw [List.mem_append, List.mem_singleton]

theorem get?_foldl_mergeAt (f : α → α → α) {l : List (κ × α)} (hl : (l.map Prod.fst).Nodup)
    (m : OrderedMap κ α) (k : κ) :
    (l.foldl (fun m p => m.mergeAt f p.1 p.2) m).get? k =
      Option.merge f (m.get? k) (lookup k l) := by
  induction l generalizing m with
  | nil => exact (Option.merge_none_right ..).symm
  | cons p rest ih =>
      rw [List.map_cons, List.nodup_cons] at hl
      rw [List.foldl_cons, ih hl.2]
      by_cases hp : p.1 = k
      · subst hp
        have hrest : lookup p.1 rest = none := lookup_eq_none_iff.mpr hl.1
        rw [hrest, get?_mergeAt_self, Option.merge_none_right]
        simp [lookup]
      · rw [get?_mergeAt_of_ne f m p.2 hp]
        simp [lookup, hp]

theorem keys_foldl_mergeAt (f : α → α → α) {l : List (κ × α)} (hl : (l.map Prod.fst).Nodup)
    (m : OrderedMap κ α) : (l.foldl (fun m p => m.mergeAt f p.1 p.2) m).keys =
      m.keys ++ (l.map Prod.fst).filter fun k => decide (k ∉ m.keys) := by
  induction l generalizing m with
  | nil => simp
  | cons p rest ih =>
      rw [List.map_cons, List.nodup_cons] at hl
      -- the key that was just bound is none of those that follow
      have hrest : ((rest.map Prod.fst).filter fun k => decide (k ∉ (m.mergeAt f p.1 p.2).keys)) =
          (rest.map Prod.fst).filter fun k => decide (k ∉ m.keys) := by
        refine List.filter_congr fun k hk => ?_
        have hne : k ≠ p.1 := fun heq => hl.1 (heq ▸ hk)
        simp [mem_keys_mergeAt, hne]
      rw [List.foldl_cons, ih hl.2, hrest, List.map_cons, List.filter_cons]
      unfold mergeAt
      rw [keys_insert]
      by_cases hp : p.1 ∈ m.keys <;> simp [hp]

/-- **Binding the entries of a map one after the other lays it over the map below.** -/
theorem foldl_mergeAt (f : α → α → α) (m n : OrderedMap κ α) :
    n.entries.foldl (fun m p => m.mergeAt f p.1 p.2) m = m.overlayWith f n := by
  refine eq_of_get?_eq ?_ fun k => ?_
  · rw [keys_foldl_mergeAt f n.nodup_keys, keys_overlayWith]
    rfl
  · rw [get?_foldl_mergeAt f n.nodup_keys, get?_overlayWith]
    rfl

theorem mergeAt_replacing (m : OrderedMap κ α) (k : κ) (v : α) :
    m.mergeAt (fun _ v => v) k v = m.insert k v := by
  unfold mergeAt
  cases m.get? k <;> rfl

theorem foldl_insert (m n : OrderedMap κ α) :
    n.entries.foldl (fun m p => m.insert p.1 p.2) m = m.overlay n := by
  have hfold := foldl_mergeAt (fun _ v => v) m n
  simp only [mergeAt_replacing] at hfold
  exact hfold

end FuzzyGates.OrderedMap
