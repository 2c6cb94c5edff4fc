import FuzzyGates.Proofs.Logic.Grammar

/-!
# The positions that reading visits

Reading visits a node, then what its operator is applied to, then a threshold, then the operands
from left to right.  Where the arguments of an operator are not as many as it takes, there are no
operands to visit.

* `Spot`, `Position` — what is looked at, and where.
* `positions` — the positions of a document in the order of the visit.
* `positionsAt` — the same for a document inside another, with one equation for each kind of node.
-/

namespace FuzzyGates

namespace Logic

/-! ### The order of the visit -/

/-- What reading looks at. -/
inductive Spot
  | node (d : Document)
  /-- The arguments of an operator, the name of a variable or the number of a literal. -/
  | arguments (f : Form) (arg : Document)
  | threshold (d : Document)

/-- What reading looks at, and where. -/
structure Position where
  path : Path
  spot : Spot

/-- A position of a part, as one of the whole. -/
def Position.inside (path : Path) (q : Position) : Position := ⟨path ++ q.path, q.spot⟩

theorem Position.inside_comp_inside (outer inner : Path) :
    Position.inside outer ∘ Position.inside inner = Position.inside (outer ++ inner) := by
  funext q
  simp [Position.inside, List.append_assoc]

/-- The positions of a document in the order of the visit.  Paths name operators by their
canonical spelling. -/
def positions : Document → List Position
  | .mapping [(key, arg)] =>
      ⟨[], .node (.mapping [(key, arg)])⟩ ::
        match Form.ofKey? key with
        | none => []
        | some f =>
            let here : Path := [.operator f.tag]
            ⟨here, .arguments f arg⟩ ::
              match f with
              | .var | .value => []
              | .apply .complement =>
                  match arg with
                  | .list [a] => (positions a).map (.inside (here ++ [.operand 0]))
                  | .list _ => []
                  | a => (positions a).map (.inside (here ++ [.operand 0]))
              | .apply .alphaCut =>
                  match arg with
                  | .list [a, t] =>
                      ⟨here ++ [.operand 1], .threshold t⟩ ::
                        (positions a).map (.inside (here ++ [.operand 0]))
                  | _ => []
              | .apply (.join _) =>
                  match arg with
                  | .list [a, b] =>
                      (positions a).map (.inside (here ++ [.operand 0])) ++
                        (positions b).map (.inside (here ++ [.operand 1]))
                  | _ => []
  | d => [⟨[], .node d⟩]
termination_by structural d => d

/-- The positions of a document that stands at the end of a path. -/
def positionsAt (path : Path) (d : Document) : List Position :=
  (positions d).map (.inside path)

section Entries

variable (path : Path) {key : Atom}

/-- A document that is no mapping with one entry is a position of its own only. -/
theorem positionsAt_of_ne {d : Document} (h : ∀ key arg, d ≠ .mapping [(key, arg)]) :
    positionsAt path d = [⟨path, .node d⟩] := by
  unfold positionsAt positions
  split
  · next key arg => exact absurd rfl (h key arg)
  · simp [Position.inside]

theorem positionsAt_unknown (h : Form.ofKey? key = none) (arg : Document) :
    positionsAt path (.mapping [(key, arg)]) = [⟨path, .node (.mapping [(key, arg)])⟩] := by
  unfold positionsAt positions
  rw [h]
  simp [Position.inside]

/-- After a node whose key announces a form, what stands under the key is looked at. -/
theorem exists_positionsAt {f : Form} (h : Form.ofKey? key = some f) (arg : Document) :
    ∃ rest, positionsAt path (.mapping [(key, arg)]) =
      ⟨path, .node (.mapping [(key, arg)])⟩ ::
        ⟨path ++ [.operator f.tag], .arguments f arg⟩ :: rest := by
  unfold positionsAt positions
  rw [h]
  simp only [List.map_cons, Position.inside, List.append_nil]
  exact ⟨_, rfl⟩

theorem positionsAt_var (h : Form.ofKey? key = some .var) (arg : Document) :
    positionsAt path (.mapping [(key, arg)]) =
      [⟨path, .node (.mapping [(key, arg)])⟩,
        ⟨path ++ [.operator "var"], .arguments .var arg⟩] := by
  unfold positionsAt positions
  rw [h]
  simp [Position.inside, Form.tag]

theorem positionsAt_value (h : Form.ofKey? key = some .value) (arg : Document) :
    positionsAt path (.mapping [(key, arg)]) =
      [⟨path, .node (.mapping [(key, arg)])⟩,
        ⟨path ++ [.operator "value"], .arguments .value arg⟩] := by
  unfold positionsAt positions
  rw [h]
  simp [Position.inside, Form.tag]

theorem positionsAt_complementItem (h : Form.ofKey? key = some (.apply .complement))
    (a : Document) :
    let here := path ++ [.operator "complement"]
    positionsAt path (.mapping [(key, .list [a])]) =
      ⟨path, .node (.mapping [(key, .list [a])])⟩ ::
        ⟨here, .arguments (.apply .complement) (.list [a])⟩ ::
          positionsAt (here ++ [.operand 0]) a := by
  intro here
  unfold positionsAt
  conv => lhs; unfold positions
  rw [h]
  simp [here, Position.inside, Position.inside_comp_inside, Form.tag, Operator.tag]

theorem positionsAt_complement (h : Form.ofKey? key = some (.apply .complement)) {a : Document}
    (hlist : ∀ items, a ≠ .list items) :
    let here := path ++ [.operator "complement"]
    positionsAt path (.mapping [(key, a)]) =
      ⟨path, .node (.mapping [(key, a)])⟩ ::
        ⟨here, .arguments (.apply .complement) a⟩ ::
          positionsAt (here ++ [.operand 0]) a := by
  intro here
  unfold positionsAt
  conv => lhs; unfold positions
  rw [h]
  dsimp only
  split
  · next a => exact absurd rfl (hlist [a])
  · next items _ => exact absurd rfl (hlist items)
  · simp [here, Position.inside, Position.inside_comp_inside, Form.tag, Operator.tag]

theorem positionsAt_alphaCut (h : Form.ofKey? key = some (.apply .alphaCut)) (a t : Document) :
    let here := path ++ [.operator "alpha_cut"]
    positionsAt path (.mapping [(key, .list [a, t])]) =
      ⟨path, .node (.mapping [(key, .list [a, t])])⟩ ::
        ⟨here, .arguments (.apply .alphaCut) (.list [a, t])⟩ ::
          ⟨here ++ [.operand 1], .threshold t⟩ :: positionsAt (here ++ [.operand 0]) a := by
  intro here
  unfold positionsAt
  conv => lhs; unfold positions
  rw [h]
  simp [here, Position.inside, Position.inside_comp_inside, Form.tag, Operator.tag]

theorem positionsAt_join {c : Connective} (h : Form.ofKey? key = some (.apply (.join c)))
    (a b : Document) :
    let here := path ++ [.operator c.tag]
    positionsAt path (.mapping [(key, .list [a, b])]) =
      ⟨path, .node (.mapping [(key, .list [a, b])])⟩ ::
        ⟨here, .arguments (.apply (.join c)) (.list [a, b])⟩ ::
          (positionsAt (here ++ [.operand 0]) a ++ positionsAt (here ++ [.operand 1]) b) := by
  intro here
  unfold positionsAt
  conv => lhs; unfold positions
  rw [h]
  simp [here, Position.inside, Position.inside_comp_inside, Form.tag, Operator.tag]

end Entries

end Logic

end FuzzyGates
