import FuzzyGates.Proofs.Expr.OwnNames
import FuzzyGates.Proofs.Logic.RoundTrip

/-!
# Writing trees with bare nodes

No evaluation gets past a bare node.  Writing refuses the bare nodes with one operand, wherever
in a tree they are; those with two it writes like connectives, under the empty key.  No form has
this key, so reading refuses what was written, at the first node of this kind.

* `Expr.isBareUnary`, `unwritten?` — the nodes that writing refuses, and the first of them.
* `refusedAt?` — where the serialized form of a tree is refused.
* `ends_encode`, `encode_eq_error_iff` — which trees are written and which are not.
* `decodeAt_of_encode` — what reading makes of a tree that was written.
* **`writing_overlooks_bare_binary`** — writing refuses the bare nodes with one operand and no
  others, and of what it writes for the others nothing is read and nothing is evaluated.
-/

namespace FuzzyGates

/-- Whether a node has one operand but no operator. -/
def Expr.isBareUnary : Expr → Bool
  | bareUnary _ => true
  | _ => false

namespace Logic

variable {e : Expr}

/-! ### What is not written -/

/-- The first node along the walk that writing refuses. -/
def unwritten? (e : Expr) : Option Expr := e.walk.find? Expr.isBareUnary

@[simp] theorem unwritten?_join (c : Connective) (l r : Expr) :
    unwritten? (.join c l r) = (unwritten? l).or (unwritten? r) := by
  simp [unwritten?, Expr.walk, Expr.isBareUnary, List.find?_append]

@[simp] theorem unwritten?_complement (e : Expr) :
    unwritten? (.complement e) = unwritten? e := by
  simp [unwritten?, Expr.walk, Expr.isBareUnary]

@[simp] theorem unwritten?_alphaCut (e : Expr) (t : Degree) :
    unwritten? (.alphaCut e t) = unwritten? e := by
  simp [unwritten?, Expr.walk, Expr.isBareUnary]

@[simp] theorem unwritten?_bareUnary (e : Expr) :
    unwritten? (.bareUnary e) = some (.bareUnary e) := by
  simp [unwritten?, Expr.walk, Expr.isBareUnary]

@[simp] theorem unwritten?_bareBinary (l r : Expr) :
    unwritten? (.bareBinary l r) = (unwritten? l).or (unwritten? r) := by
  simp [unwritten?, Expr.walk, Expr.isBareUnary, List.find?_append]

/-- How writing ends, given the first node that it refuses, if there is one. -/
def Ends (refused : Option Expr) (result : Except FormatError Document) : Prop :=
  match refused with
  | none => ∃ d, result = .ok d ∧ IsForm d
  | some n => result = .error (.unwritable n)

section Ends

variable {x y : Option Expr} {p q : Except FormatError Document}

theorem Ends.operand (h : Ends x p) (key : String) (f : Document → Document) :
    Ends x (do return entry key (f (← p))) := by
  cases x with
  | none =>
      obtain ⟨a, rfl, -⟩ := h
      exact ⟨entry key (f a), rfl, isForm_entry _ _⟩
  | some n =>
      cases h
      rfl

/-- The right operand is looked at only if the left one is written. -/
theorem Ends.operands (hleft : Ends x p) (hright : Ends y q) (key : String) :
    Ends (x.or y) (do
      let a ← p
      let b ← q
      return entry key (.list [a, b])) := by
  cases x with
  | none =>
      obtain ⟨a, rfl, -⟩ := hleft
      exact hright.operand key fun b => .list [a, b]
  | some n =>
      cases hleft
      rfl

end Ends

/-- **Writing ends as the first bare node with one operand says.** -/
theorem ends_encode (e : Expr) : Ends (unwritten? e) (encode e) := by
  induction e with
  | value x => exact ⟨_, rfl, trivial⟩
  | var n => exact ⟨_, rfl, isForm_entry _ _⟩
  | join c l r ihl ihr =>
      rw [unwritten?_join]
      exact ihl.operands ihr c.tag
  | complement e ih =>
      rw [unwritten?_complement]
      exact ih.operand "complement" id
  | alphaCut e t ih =>
      rw [unwritten?_alphaCut]
      exact ih.operand "alpha_cut" fun a => .list [a, .atom (.float t)]
  | bareUnary e =>
      rw [unwritten?_bareUnary]
      rfl
  | bareBinary l r ihl ihr =>
      rw [unwritten?_bareBinary]
      exact ihl.operands ihr ""

theorem encode_of_unwritten? {n : Expr} (h : unwritten? e = some n) :
    encode e = .error (.unwritable n) := by
  have hends := ends_encode e
  rwa [h] at hends

theorem exists_encode_of_unwritten? (h : unwritten? e = none) :
    ∃ d, encode e = .ok d ∧ IsForm d := by
  have hends := ends_encode e
  rwa [h] at hends

/-- What is written is a form, of a tree in which writing refuses nothing. -/
theorem written_of_encode {d : Document} (h : encode e = .ok d) :
    unwritten? e = none ∧ IsForm d := by
  cases hfirst : unwritten? e with
  | none =>
      obtain ⟨d', hd', hform⟩ := exists_encode_of_unwritten? hfirst
      rw [hd'] at h
      cases h
      exact ⟨rfl, hform⟩
  | some n =>
      rw [encode_of_unwritten? hfirst] at h
      cases h

/-- **A tree is not written exactly if it holds a bare node with one operand**, and the first one
is reported. -/
theorem encode_eq_error_iff {err : FormatError} :
    encode e = .error err ↔ ∃ n, unwritten? e = some n ∧ err = .unwritable n := by
  constructor
  · intro h
    cases hfirst : unwritten? e with
    | none =>
        obtain ⟨d, hd, -⟩ := exists_encode_of_unwritten? hfirst
        rw [hd] at h
        cases h
    | some n =>
        rw [encode_of_unwritten? hfirst] at h
        cases h
        exact ⟨n, rfl, rfl⟩
  · rintro ⟨n, hn, rfl⟩
    exact encode_of_unwritten? hn

/-! ### What is written and not read -/

/-- The position of the first bare node with two operands in the serialized form of a tree, the
root of the form being at the given one. -/
def refusedAt? (path : Path) : Expr → Option Path
  | .value _ | .var _ | .bareUnary _ => none
  | .join c l r =>
      let here := path ++ [.operator c.tag]
      (refusedAt? (here ++ [.operand 0]) l).or (refusedAt? (here ++ [.operand 1]) r)
  | .complement e => refusedAt? (path ++ [.operator "complement"] ++ [.operand 0]) e
  | .alphaCut e _ => refusedAt? (path ++ [.operator "alpha_cut"] ++ [.operand 0]) e
  | .bareBinary _ _ => some path

/-- A tree without bare nodes is one that writing and reading let pass. -/
theorem concrete_iff (path : Path) :
    e.Concrete ↔ unwritten? e = none ∧ refusedAt? path e = none := by
  induction e generalizing path with
  | value x =>
      simp [Expr.Concrete, Expr.walk, Expr.isBare, unwritten?, Expr.isBareUnary, refusedAt?]
  | var n =>
      simp [Expr.Concrete, Expr.walk, Expr.isBare, unwritten?, Expr.isBareUnary, refusedAt?]
  | join c l r ihl ihr =>
      rw [Expr.concrete_join, unwritten?_join, refusedAt?, Option.or_eq_none_iff,
        Option.or_eq_none_iff, ihl, ihr, and_and_and_comm]
  | complement e ih => rw [Expr.concrete_complement, unwritten?_complement, refusedAt?, ih]
  | alphaCut e t ih => rw [Expr.concrete_alphaCut, unwritten?_alphaCut, refusedAt?, ih]
  | bareUnary e => simp [Expr.not_concrete_bareUnary]
  | bareBinary l r => simp [Expr.not_concrete_bareBinary, refusedAt?]

/-- The empty key announces no form. -/
theorem decodeAt_empty_key (path : Path) (arg : Document) :
    decodeAt path (entry "" arg) = .error (.malformed path (.unknownOperator (.text ""))) := by
  have hform : Form.ofKey? (.text "") = none := by decide
  unfold entry
  conv => lhs; unfold decodeAt
  rw [hform]
  rfl

/-- **What was written reads back, or is refused at its first bare node.** -/
theorem decodeAt_of_encode {d : Document} (h : encode e = .ok d) (path : Path) :
    decodeAt path d = match refusedAt? path e with
      | none => .ok e
      | some p => .error (.malformed p (.unknownOperator (.text ""))) := by
  induction e generalizing d path with
  | value x =>
      cases h
      rfl
  | var n =>
      cases h
      rw [decodeAt_var path (by decide), decodeReference_eq_ok_iff.mpr (.inl rfl)]
      rfl
  | join c l r ihl ihr =>
      obtain ⟨a, ha, h⟩ := bind_eq_ok_iff.mp h
      obtain ⟨b, hb, h⟩ := bind_eq_ok_iff.mp h
      cases h
      rw [decodeAt_join path (canonical_tag c), ihl ha, ihr hb, refusedAt?]
      cases refusedAt? (path ++ [.operator c.tag] ++ [.operand 0]) l with
      | some p => rfl
      | none =>
          cases refusedAt? (path ++ [.operator c.tag] ++ [.operand 1]) r with
          | some p => rfl
          | none => rfl
  | complement e ih =>
      obtain ⟨a, ha, h⟩ := bind_eq_ok_iff.mp h
      cases h
      rw [decodeAt_complement path (by decide) (written_of_encode ha).2.not_list, ih ha, refusedAt?]
      cases refusedAt? (path ++ [.operator "complement"] ++ [.operand 0]) e with
      | some p => rfl
      | none => rfl
  | alphaCut e t ih =>
      obtain ⟨a, ha, h⟩ := bind_eq_ok_iff.mp h
      cases h
      change decodeAt path (entry "alpha_cut" (.list [a, .atom (Number.float t).toAtom])) = _
      rw [decodeAt_alphaCut path (by decide), ih ha, refusedAt?]
      cases refusedAt? (path ++ [.operator "alpha_cut"] ++ [.operand 0]) e with
      | some p => rfl
      | none => rfl
  | bareUnary e => cases h
  | bareBinary l r =>
      obtain ⟨a, -, h⟩ := bind_eq_ok_iff.mp h
      obtain ⟨b, -, h⟩ := bind_eq_ok_iff.mp h
      cases h
      exact decodeAt_empty_key path _

/-- A tree with a bare node has a degree in no environment. -/
theorem exists_eval_eq_error (h : ¬ e.Concrete) (env : Environment) :
    ∃ err, e.eval env = .error err := by
  cases heval : e.eval env with
  | error err => exact ⟨err, rfl⟩
  | ok x => exact absurd ((Expr.exists_eval_eq_ok_iff_resolves env e).mp ⟨x, heval⟩).1 h

/-- **Writing overlooks the bare nodes with two operands.**  A tree is not written exactly if it
holds a bare node with one operand, and the first along the walk is reported.  What is written
reads back if the tree holds no bare node at all.  If it holds some, the tree has a degree in no
environment, and still there is a form, which is refused at the first bare node. -/
theorem writing_overlooks_bare_binary (e : Expr) :
    (∀ err, encode e = .error err ↔
      ∃ n, e.walk.find? Expr.isBareUnary = some n ∧ err = .unwritable n) ∧
    ∀ d, encode e = .ok d →
      (e.Concrete ∧ decode d = .ok e) ∨
        (¬ e.Concrete ∧ (∀ env, ∃ err, e.eval env = .error err) ∧
          ∃ path, refusedAt? [] e = some path ∧
            decode d = .error (.malformed path (.unknownOperator (.text "")))) := by
  refine ⟨fun err => encode_eq_error_iff, fun d hd => ?_⟩
  have hwritten := (written_of_encode hd).1
  have hread := decodeAt_of_encode hd []
  cases hrefused : refusedAt? [] e with
  | none =>
      rw [hrefused] at hread
      exact .inl ⟨(concrete_iff []).mpr ⟨hwritten, hrefused⟩, hread⟩
  | some path =>
      rw [hrefused] at hread
      have hbare : ¬ e.Concrete := by
        intro h
        rw [((concrete_iff []).mp h).2] at hrefused
        cases hrefused
      exact .inr ⟨hbare, exists_eval_eq_error hbare, path, rfl, hread⟩

/-- Not every tree with a bare node is refused: two variables under one are written, and what is
written is not read. -/
theorem writing_not_refuses_bare_binary :
    let e := Expr.bareBinary (.var ⟨"A", by decide⟩) (.var ⟨"B", by decide⟩)
    let d := entry "" (.list [entry "var" (.ofText "A"), entry "var" (.ofText "B")])
    ¬ (∀ e : Expr, ¬ e.Concrete → ∃ err, encode e = .error err) ∧
      encode e = .ok d ∧ decode d = .error (.malformed [] (.unknownOperator (.text ""))) := by
  intro e d
  have hwritten : encode e = .ok d := rfl
  refine ⟨fun h => ?_, hwritten, rfl⟩
  obtain ⟨err, herr⟩ := h e Expr.not_concrete_bareBinary
  rw [hwritten] at herr
  cases herr

end Logic

end FuzzyGates
