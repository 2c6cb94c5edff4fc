import FuzzyGates.Document.Basic

/-!
# When two documents are equal

Documents are identical if they agree part by part, down to the bits of their
numbers and the order of entries.  They are the same by value under a wider
relation, which compares numbers numerically and ignores the order of entries.
-/

namespace FuzzyGates.Document

mutual

/-- Whether two documents are the same, part by part. -/
def decEq : (d e : Document) → Decidable (d = e)
  | atom a, atom b => decidable_of_iff (a = b) (by simp)
  | pair a b, pair c d =>
      match decEq a c, decEq b d with
      | isTrue h, isTrue k => isTrue (by rw [h, k])
      | isFalse h, _ => isFalse (by simp [h])
      | _, isFalse k => isFalse (by simp [k])
  | set xs, set ys => decidable_of_iff (xs = ys) (by simp)
  | list xs, list ys =>
      match decEqItems xs ys with
      | isTrue h => isTrue (by rw [h])
      | isFalse h => isFalse (by simpa using h)
  | mapping es, mapping fs =>
      match decEqEntries es fs with
      | isTrue h => isTrue (by rw [h])
      | isFalse h => isFalse (by simpa using h)
  | atom _, pair _ _ | atom _, list _ | atom _, set _ | atom _, mapping _ | pair _ _, atom _
  | pair _ _, list _ | pair _ _, set _ | pair _ _, mapping _ | list _, atom _ | list _, pair _ _
  | list _, set _ | list _, mapping _ | set _, atom _ | set _, pair _ _ | set _, list _
  | set _, mapping _ | mapping _, atom _ | mapping _, pair _ _ | mapping _, list _
  | mapping _, set _ => isFalse (by simp)

/-- Whether two lists are the same, item by item. -/
def decEqItems : (xs ys : List Document) → Decidable (xs = ys)
  | [], [] => isTrue rfl
  | x :: xs, y :: ys =>
      match decEq x y, decEqItems xs ys with
      | isTrue h, isTrue hs => isTrue (by rw [h, hs])
      | isFalse h, _ => isFalse (by simp [h])
      | _, isFalse hs => isFalse (by simp [hs])
  | [], _ :: _ | _ :: _, [] => isFalse (by simp)

/-- Whether two mappings are the same, entry by entry. -/
def decEqEntries : (es fs : List (Atom × Document)) → Decidable (es = fs)
  | [], [] => isTrue rfl
  | (k, d) :: es, (l, e) :: fs =>
      match decEq d e, decEqEntries es fs with
      | isTrue h, isTrue hs => decidable_of_iff (k = l) (by simp [h, hs])
      | isFalse h, _ => isFalse (by simp [h])
      | _, isFalse hs => isFalse (by simp [hs])
  | [], _ :: _ | _ :: _, [] => isFalse (by simp)

end

instance : DecidableEq Document := decEq

mutual

/-- Equality by value; the order of the entries of a mapping does not count. -/
def same : Document → Document → Bool
  | atom a, atom b => a.same b
  | pair a b, pair c d => same a c && same b d
  | list xs, list ys => sameItems xs ys
  | set xs, set ys => xs.length = ys.length && xs.all fun x => ys.any x.same
  | mapping es, mapping fs => es.length = fs.length && sameEntries es fs
  | _, _ => false

/-- Equality of lists, item by item. -/
def sameItems : List Document → List Document → Bool
  | [], [] => true
  | x :: xs, y :: ys => same x y && sameItems xs ys
  | _, _ => false

/-- Whether every entry has an equal one in a mapping. -/
def sameEntries : List (Atom × Document) → List (Atom × Document) → Bool
  | [], _ => true
  | (k, v) :: rest, fs =>
      (match fs.find? fun p => p.1.same k with
      | some p => same v p.2
      | none => false) && sameEntries rest fs

end

end FuzzyGates.Document
