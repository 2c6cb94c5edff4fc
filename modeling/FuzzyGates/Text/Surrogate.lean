/-!
# Texts with surrogates

A text is a list of code points, and some of these, the surrogates, are no
characters.  So that a `String` can hold every text, a surrogate is written as
two characters: a mark and a character of private use that tells which one it
is.  The mark is itself the last of all code points and is written twice where
it stands for itself.  Each other code point is the character that it is, which
makes the written form of a text without surrogates and marks that text.
`points_flatMap_ofPoint` says that no two texts have the same written form.
-/

namespace FuzzyGates.Text

/-- The character before one that stands for a surrogate. -/
def mark : Char := Char.ofNat 0x10FFFF

/-- Whether a code point is no character. -/
def isSurrogate (n : Nat) : Bool := 0xD800 ≤ n && n ≤ 0xDFFF

/-- The written form of a code point. -/
def ofPoint (n : Nat) : List Char :=
  if isSurrogate n then [mark, Char.ofNat (n + 0x800)]
  else if n = mark.toNat then [mark, mark]
  else [Char.ofNat n]

/-- The code points that are written in a list of characters. -/
def points : List Char → List Nat
  | [] => []
  | [c] => [c.toNat]
  | c :: d :: rest =>
      if c = mark then (if d = mark then mark.toNat else d.toNat - 0x800) :: points rest
      else c.toNat :: points (d :: rest)

/-- The text of a list of code points. -/
def ofPoints (ns : List Nat) : String := String.ofList (ns.flatMap ofPoint)

/-- The text of a list of characters. -/
def ofChars (cs : List Char) : String := ofPoints (cs.map Char.toNat)

/-- The characters of a text, unless it has surrogates. -/
def chars? (s : String) : Option (List Char) :=
  let ns := points s.toList
  if ns.any isSurrogate then none else some (ns.map Char.ofNat)

/-- The text with three signs for what cannot be shown in place of each surrogate. -/
def shown (s : String) : String :=
  ofPoints ((points s.toList).flatMap fun n =>
    if isSurrogate n then List.replicate 3 0xFFFD else [n])

/-- Whether the first text comes before the second in the order of code points. -/
def precedes (s t : String) : Bool := points s.toList < points t.toList

theorem toNat_ofNat {n : Nat} (h : n < 0x110000) (isChar : isSurrogate n = false) :
    (Char.ofNat n).toNat = n := by
  have valid : n.isValidChar := by
    simp only [isSurrogate, Bool.and_eq_false_iff, decide_eq_false_iff_not] at isChar
    by_cases low : n < 0xD800
    · exact .inl low
    · exact .inr ⟨by omega, h⟩
  rw [Char.ofNat, dif_pos valid]
  rfl

theorem points_cons {c : Char} (h : c ≠ mark) (cs : List Char) :
    points (c :: cs) = c.toNat :: points cs := by
  cases cs with
  | nil => rfl
  | cons d rest => simp [points, h]

theorem points_ofPoint_append {n : Nat} (h : n < 0x110000) (cs : List Char) :
    points (ofPoint n ++ cs) = n :: points cs := by
  by_cases surrogate : isSurrogate n = true
  · have range := surrogate
    simp only [isSurrogate, Bool.and_eq_true, decide_eq_true_eq] at range
    have value : (Char.ofNat (n + 0x800)).toNat = n + 0x800 :=
      toNat_ofNat (by omega) (by simp [isSurrogate]; omega)
    have other : Char.ofNat (n + 0x800) ≠ mark := fun same => by
      have big : n + 0x800 = mark.toNat := value.symm.trans (congrArg Char.toNat same)
      have last : mark.toNat = 0x10FFFF := by decide
      omega
    simp [ofPoint, surrogate, points, other, value]
  · by_cases last : n = mark.toNat
    · subst last
      simp [ofPoint, surrogate, points]
    · have value : (Char.ofNat n).toNat = n := toNat_ofNat h (by simpa using surrogate)
      have other : Char.ofNat n ≠ mark := fun same =>
        last (value.symm.trans (congrArg Char.toNat same))
      simp only [ofPoint, surrogate, last, if_false, List.cons_append, List.nil_append,
        points_cons other, value, Bool.false_eq_true]

/-- The code points of a text are those that it was made of. -/
theorem points_flatMap_ofPoint {ns : List Nat} (h : ∀ n ∈ ns, n < 0x110000) :
    points (ns.flatMap ofPoint) = ns := by
  induction ns with
  | nil => rfl
  | cons n ns ih =>
      rw [List.flatMap_cons, points_ofPoint_append (h n (by simp)),
        ih fun m hm => h m (by simp [hm])]

end FuzzyGates.Text
