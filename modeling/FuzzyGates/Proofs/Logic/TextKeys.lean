import FuzzyGates.Proofs.Config.Building
import FuzzyGates.Proofs.Logic.BreakOff
import FuzzyGates.Proofs.Sorting.Elements

/-!
# Logic with text keys

Texts have an order and can be written, so a message can always list them.  Serialized logic
whose keys are texts and whose numbers are degrees is therefore read or refused, and reading
does not break off.
-/

namespace FuzzyGates

namespace Document

/-- All keys of the mappings in a document are texts. -/
inductive TextKeyed : Document → Prop
  | atom (a : Atom) : TextKeyed (.atom a)
  | pair {a b : Document} (ha : TextKeyed a) (hb : TextKeyed b) : TextKeyed (.pair a b)
  | list {items : List Document} (h : ∀ d ∈ items, TextKeyed d) : TextKeyed (.list items)
  | set (elements : List Atom) : TextKeyed (.set elements)
  | mapping {entries : List (Atom × Document)} (hkeys : ∀ p ∈ entries, ∃ s, p.1 = .text s)
      (hvalues : ∀ p ∈ entries, TextKeyed p.2) : TextKeyed (.mapping entries)

theorem textKeyed_list {items : List Document} :
    (list items).TextKeyed ↔ ∀ d ∈ items, d.TextKeyed := by
  constructor
  · intro h
    cases h with
    | list h => exact h
  · exact .list

theorem textKeyed_mapping {entries : List (Atom × Document)} :
    (mapping entries).TextKeyed ↔
      (∀ p ∈ entries, ∃ s, p.1 = .text s) ∧ ∀ p ∈ entries, p.2.TextKeyed := by
  constructor
  · intro h
    cases h with
    | mapping hkeys hvalues => exact ⟨hkeys, hvalues⟩
  · exact fun h => .mapping h.1 h.2

end Document

namespace Logic

open Document (inRange_list inRange_toAtom textKeyed_list textKeyed_mapping)

theorem textKeyed_entry {s : String} {d : Document} : (entry s d).TextKeyed ↔ d.TextKeyed := by
  simp [entry, textKeyed_mapping]

/-- **Reading does not break off** over text keys and numbers that are degrees. -/
theorem not_breaksOff {d : Document} {f : ReadError} (hrange : d.InRange) (hkeys : d.TextKeyed) :
    ¬ BreaksOff d f := by
  intro h
  induction h with
  | number hn => exact hn (inRange_toAtom.mp hrange)
  | unordered _ hsort =>
      obtain ⟨sorted, hsorted, -⟩ :=
        Atom.sort_texts (List.forall_mem_map.mpr (textKeyed_mapping.mp hkeys).1)
      rw [hsort] at hsorted
      cases hsorted
  | unwritable _ hsort hkey =>
      obtain ⟨sorted, hsorted, htexts⟩ :=
        Atom.sort_texts (List.forall_mem_map.mpr (textKeyed_mapping.mp hkeys).1)
      cases hsort.symm.trans hsorted
      obtain ⟨key, hmem, hkey⟩ := hkey
      obtain ⟨s, rfl⟩ := htexts key hmem
      cases hkey
  | unnamed _ _ hkey =>
      obtain ⟨s, rfl⟩ := (textKeyed_mapping.mp hkeys).1 _ List.mem_cons_self
      cases hkey
  | value _ hn => exact hn (inRange_toAtom.mp (inRange_entry.mp hrange))
  | complement _ _ _ ih => exact ih (inRange_entry.mp hrange) (textKeyed_entry.mp hkeys)
  -- a first operand, in a list
  | complementItem _ _ ih | alphaCut _ _ _ ih | left _ _ _ ih =>
      simp only [inRange_entry, inRange_list, List.forall_mem_cons] at hrange
      simp only [textKeyed_entry, textKeyed_list, List.forall_mem_cons] at hkeys
      exact ih hrange.1 hkeys.1
  | threshold _ _ _ ht =>
      simp only [inRange_entry, inRange_list, List.forall_mem_cons] at hrange
      exact ht (inRange_toAtom.mp hrange.2.1)
  | right _ _ _ _ ih =>
      simp only [inRange_entry, inRange_list, List.forall_mem_cons] at hrange
      simp only [textKeyed_entry, textKeyed_list, List.forall_mem_cons] at hkeys
      exact ih hrange.2.1 hkeys.2.1

theorem breakOff?_eq_none {d : Document} (hrange : d.InRange) (hkeys : d.TextKeyed) :
    breakOff? d = none := by
  unfold breakOff?
  split
  · next hread => exact absurd (breaksOff_of_decodeAt hread nofun) (not_breaksOff hrange hkeys)
  · next hread => exact absurd (breaksOff_of_decodeAt hread nofun) (not_breaksOff hrange hkeys)
  · rfl

end Logic

end FuzzyGates
