import FuzzyGates.Proofs.Logic.Grammar

/-!
# Serialized logic reads back

A tree without bare nodes has a serialized form, and reading the form anywhere yields the
tree again, with the same names and the same degrees.  So the form determines the tree, and
of all documents that stand for one tree the form is the one that writing produces.

* `exists_encode_denotes` — the serialized form of a tree denotes the tree.
* **`exists_encode_eq_ok`** — the serialized form of a tree and what reading it yields.
* **`decoding_undoes_encoding`** — the round trip, and the form as the canonical document.
-/

namespace FuzzyGates

namespace Logic

open Document (inRange_float inRange_list inRange_text)

/-- The shape of serialized logic: a number, or a mapping. -/
def IsForm : Document → Prop
  | .atom (.float _) | .mapping _ => True
  | _ => False

theorem isForm_entry (key : String) (d : Document) : IsForm (entry key d) := trivial

theorem IsForm.not_list {d : Document} (h : IsForm d) (items : List Document) :
    d ≠ .list items := by
  rintro rfl
  exact h

theorem IsForm.not_null {d : Document} (h : IsForm d) : d ≠ .atom .null := by
  rintro rfl
  exact h

/-- The canonical spelling of an operator is a spelling of it. -/
theorem canonical_tag (c : Connective) : canonical c.tag = c.tag := by
  cases c <;> decide

/-- **The serialized form of a tree denotes it**, and its numbers are degrees already.  A
complement is written without a list, which is no ambiguity: no form is a list. -/
theorem exists_encode_denotes {e : Expr} (h : e.Concrete) :
    ∃ d, encode e = .ok d ∧ IsForm d ∧ Denotes d e ∧ d.InRange := by
  induction e with
  | value x => exact ⟨_, rfl, trivial, .number (.float x), inRange_float x⟩
  | var n =>
      exact ⟨_, rfl, isForm_entry _ _, .var (by decide) n, inRange_entry.mpr (inRange_text _)⟩
  | join c l r ihl ihr =>
      obtain ⟨hl, hr⟩ := Expr.concrete_join.mp h
      obtain ⟨a, ha, -, hdenotesa, hrangea⟩ := ihl hl
      obtain ⟨b, hb, -, hdenotesb, hrangeb⟩ := ihr hr
      refine ⟨entry c.tag (.list [a, b]), ?_, isForm_entry _ _,
        .join (canonical_tag c) hdenotesa hdenotesb, ?_⟩
      · simp only [encode, ha, hb]
        rfl
      · simpa [inRange_entry, inRange_list] using ⟨hrangea, hrangeb⟩
  | complement e ih =>
      obtain ⟨a, ha, hform, hdenotes, hrange⟩ := ih (Expr.concrete_complement.mp h)
      refine ⟨entry "complement" a, ?_, isForm_entry _ _,
        .complement (by decide) hform.not_list hdenotes, inRange_entry.mpr hrange⟩
      simp only [encode, ha]
      rfl
  | alphaCut e t ih =>
      obtain ⟨a, ha, -, hdenotes, hrange⟩ := ih (Expr.concrete_alphaCut.mp h)
      refine ⟨entry "alpha_cut" (.list [a, .atom (.float t)]), ?_, isForm_entry _ _,
        .alphaCut (by decide) hdenotes (.float t), ?_⟩
      · simp only [encode, ha]
        rfl
      · simpa [inRange_entry, inRange_list] using ⟨hrange, inRange_float t⟩
  | bareUnary e => exact absurd h Expr.not_concrete_bareUnary
  | bareBinary l r => exact absurd h Expr.not_concrete_bareBinary

/-- **A tree without bare nodes has a serialized form, which reads back anywhere.** -/
theorem exists_encode_eq_ok {e : Expr} (h : e.Concrete) :
    ∃ d, encode e = .ok d ∧ IsForm d ∧ ∀ path, decodeAt path d = .ok e := by
  obtain ⟨d, hd, hform, hdenotes, hrange⟩ := exists_encode_denotes h
  exact ⟨d, hd, hform, decodeAt_of_denotes hdenotes hrange⟩

/-- **Decoding undoes encoding.**  The form of a tree reads back as the tree, no other tree has
this form, and whatever other document the tree was read from, the form reads as that document
does and is what writing makes of it. -/
theorem decoding_undoes_encoding (e : Expr) (h : e.Concrete) :
    (∃ d, encode e = .ok d ∧ decode d = .ok e) ∧
      (∀ f : Expr, f.Concrete → encode f = encode e → f = e) ∧
      (∀ v, decode v = .ok e → ∃ d, encode e = .ok d ∧ decode d = decode v ∧
        ∀ e', decode d = .ok e' → encode e' = .ok d) := by
  obtain ⟨d, hd, -, hread⟩ := exists_encode_eq_ok h
  have hdecode : decode d = .ok e := hread []
  refine ⟨⟨d, hd, hdecode⟩, ?_, ?_⟩
  · intro f hf hforms
    obtain ⟨d', hd', -, hread'⟩ := exists_encode_eq_ok hf
    have hsame : d' = d := Except.ok.inj (hd'.symm.trans (hforms.trans hd))
    have htrees : (.ok f : Except ReadError Expr) = .ok e := by
      rw [← hread' [], hsame, hread []]
    exact Except.ok.inj htrees
  · intro v hv
    refine ⟨d, hd, hdecode.trans hv.symm, fun e' he' => ?_⟩
    obtain rfl : e = e' := Except.ok.inj (hdecode.symm.trans he')
    exact hd

/-- A name that is an alias, an undefined literal and a negative zero, written with aliases. -/
theorem decoding_undoes_encoding_of_aliases :
    let e : Expr := .alphaCut (.complement (.join .xor (.var ⟨"not", by decide⟩)
      (.value (0.0 / 0.0)))) (-0.0)
    let xor := entry "xor" (.list [.ofText "not", .atom (.float (0.0 / 0.0))])
    let v := entry "alphaCut" (.list [entry "!" (.list [xor]), .atom (.float (-0.0))])
    e.Concrete ∧ decode v = .ok e ∧ encode e ≠ .ok v ∧
      ∃ d, encode e = .ok d ∧ decode d = decode v := by
  intro e xor v
  have hconcrete : e.Concrete := by decide
  have hread : decode v = .ok e := rfl
  obtain ⟨-, -, hcanonical⟩ := decoding_undoes_encoding e hconcrete
  obtain ⟨d, hd, hsame, -⟩ := hcanonical v hread
  refine ⟨hconcrete, hread, fun h => ?_, d, hd, hsame⟩
  have hkeys := Except.ok.inj h
  simp [v, entry] at hkeys

end Logic

end FuzzyGates
