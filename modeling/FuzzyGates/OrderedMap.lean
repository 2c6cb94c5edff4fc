/-!
# Maps that remember the order of insertion

A map is a list of pairs in which no key occurs twice.  Binding a key that is
already present replaces its value in place; a new key goes to the end.  The
view of a map is its list of `entries`, and every operation below has an
equation for the keys or the lookups of its result.
-/

namespace FuzzyGates

/-- A finite map whose entries stand in the order in which the keys were first bound. -/
structure OrderedMap (κ α : Type) where
  entries : List (κ × α)
  nodup_keys : (entries.map Prod.fst).Nodup

namespace OrderedMap

variable {κ α β : Type}

@[ext] theorem ext {m n : OrderedMap κ α} (h : m.entries = n.entries) : m = n := by
  cases m; cases n; cases h; rfl

instance [DecidableEq κ] [DecidableEq α] : DecidableEq (OrderedMap κ α) :=
  fun m n => decidable_of_iff (m.entries = n.entries) ⟨ext, fun h => h ▸ rfl⟩

/-- The keys in order. -/
def keys (m : OrderedMap κ α) : List κ := m.entries.map Prod.fst

/-- The number of bindings. -/
def size (m : OrderedMap κ α) : Nat := m.entries.length

/-- The map without bindings. -/
def empty : OrderedMap κ α := ⟨[], List.nodup_nil⟩

instance : EmptyCollection (OrderedMap κ α) := ⟨empty⟩
instance : Inhabited (OrderedMap κ α) := ⟨empty⟩

@[simp] theorem entries_empty : (∅ : OrderedMap κ α).entries = [] := rfl
@[simp] theorem keys_empty : (∅ : OrderedMap κ α).keys = [] := rfl

/-- Apply a function to every entry, the keys staying as they are. -/
def mapEntries (f : κ → α → β) (m : OrderedMap κ α) : OrderedMap κ β where
  entries := m.entries.map fun p => (p.1, f p.1 p.2)
  nodup_keys := by
    have h : (m.entries.map fun p => (p.1, f p.1 p.2)).map Prod.fst = m.entries.map Prod.fst := by
      simp [Function.comp_def]
    rw [h]
    exact m.nodup_keys

@[simp] theorem entries_mapEntries (f : κ → α → β) (m : OrderedMap κ α) :
    (m.mapEntries f).entries = m.entries.map fun p => (p.1, f p.1 p.2) := rfl

@[simp] theorem keys_mapEntries (f : κ → α → β) (m : OrderedMap κ α) :
    (m.mapEntries f).keys = m.keys := by
  simp [keys, Function.comp_def]

section Lookup

variable [DecidableEq κ]

/-- The value that a list of pairs holds first under a key. -/
def lookup (k : κ) : List (κ × α) → Option α
  | [] => none
  | (k', v) :: rest => if k' = k then some v else lookup k rest

/-- Replace the value under a key in place, or append the pair. -/
def upsert (k : κ) (v : α) : List (κ × α) → List (κ × α)
  | [] => [(k, v)]
  | (k', v') :: rest => if k' = k then (k', v) :: rest else (k', v') :: upsert k v rest

theorem keys_upsert (k : κ) (v : α) (l : List (κ × α)) :
    (upsert k v l).map Prod.fst =
      if k ∈ l.map Prod.fst then l.map Prod.fst else l.map Prod.fst ++ [k] := by
  induction l with
  | nil => simp [upsert]
  | cons p rest ih =>
      obtain ⟨k', v'⟩ := p
      by_cases h : k' = k
      · simp [upsert, h]
      · have h' : k ≠ k' := fun e => h e.symm
        simp only [upsert, h, ↓reduceIte, List.map_cons, List.mem_cons, h', false_or, ih]
        split <;> simp

theorem nodup_upsert (k : κ) (v : α) {l : List (κ × α)} (h : (l.map Prod.fst).Nodup) :
    ((upsert k v l).map Prod.fst).Nodup := by
  rw [keys_upsert]
  split
  · exact h
  · rename_i hk
    rw [List.nodup_append]
    refine ⟨h, by simp, ?_⟩
    intro a ha b hb
    simp only [List.mem_singleton] at hb
    intro e
    exact hk (hb ▸ e ▸ ha)

theorem lookup_upsert (k j : κ) (v : α) (l : List (κ × α)) :
    lookup j (upsert k v l) = if k = j then some v else lookup j l := by
  induction l with
  | nil => simp [upsert, lookup]
  | cons p rest ih =>
      obtain ⟨k', v'⟩ := p
      by_cases h : k' = k
      · subst h
        by_cases hj : k' = j <;> simp [upsert, lookup, hj]
      · by_cases hj : k' = j
        · subst hj
          have h' : k ≠ k' := fun e => h e.symm
          simp [upsert, lookup, h, h']
        · simp [upsert, lookup, h, hj, ih]

/-- The value bound to a key. -/
def get? (m : OrderedMap κ α) (k : κ) : Option α := lookup k m.entries

/-- Whether a key is bound. -/
def contains (m : OrderedMap κ α) (k : κ) : Bool := (m.get? k).isSome

/-- Bind a key, in its old place if it has one and at the end otherwise. -/
def insert (m : OrderedMap κ α) (k : κ) (v : α) : OrderedMap κ α where
  entries := upsert k v m.entries
  nodup_keys := nodup_upsert k v m.nodup_keys

/-- Bind the pairs of a list one after the other. -/
def ofList (l : List (κ × α)) : OrderedMap κ α :=
  l.foldl (fun m p => m.insert p.1 p.2) ∅

@[simp] theorem get?_empty (k : κ) : (∅ : OrderedMap κ α).get? k = none := rfl

theorem get?_insert (m : OrderedMap κ α) (k j : κ) (v : α) :
    (m.insert k v).get? j = if k = j then some v else m.get? j :=
  lookup_upsert k j v m.entries

@[simp] theorem get?_insert_self (m : OrderedMap κ α) (k : κ) (v : α) :
    (m.insert k v).get? k = some v := by
  simp [get?_insert]

theorem get?_insert_of_ne (m : OrderedMap κ α) {k j : κ} (v : α) (h : k ≠ j) :
    (m.insert k v).get? j = m.get? j := by
  simp [get?_insert, h]

theorem keys_insert (m : OrderedMap κ α) (k : κ) (v : α) :
    (m.insert k v).keys = if k ∈ m.keys then m.keys else m.keys ++ [k] :=
  keys_upsert k v m.entries

theorem get?_isSome_iff (m : OrderedMap κ α) (k : κ) : (m.get? k).isSome ↔ k ∈ m.keys := by
  have aux : ∀ l : List (κ × α), (lookup k l).isSome ↔ k ∈ l.map Prod.fst := by
    intro l
    induction l with
    | nil => simp [lookup]
    | cons p rest ih =>
        obtain ⟨k', v'⟩ := p
        by_cases h : k' = k
        · simp [lookup, h]
        · have h' : k ≠ k' := fun e => h e.symm
          simp only [lookup, h, ↓reduceIte, List.map_cons, List.mem_cons, h', false_or, ih]
  exact aux m.entries

theorem get?_mapEntries (f : κ → α → β) (m : OrderedMap κ α) (k : κ) :
    (m.mapEntries f).get? k = (m.get? k).map (f k) := by
  have aux : ∀ l : List (κ × α),
      lookup k (l.map fun p => (p.1, f p.1 p.2)) = (lookup k l).map (f k) := by
    intro l
    induction l with
    | nil => rfl
    | cons p rest ih =>
        obtain ⟨k', v'⟩ := p
        by_cases h : k' = k
        · subst h; simp [lookup]
        · simp [lookup, h, ih]
  exact aux m.entries

theorem contains_iff (m : OrderedMap κ α) (k : κ) : m.contains k = true ↔ k ∈ m.keys :=
  get?_isSome_iff m k

end Lookup

end OrderedMap

end FuzzyGates
