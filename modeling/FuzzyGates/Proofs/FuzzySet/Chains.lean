import FuzzyGates.FuzzySet.Basic
import FuzzyGates.Expr.Eval

/-!
# Chains of set operations

Fuzzy sets are operated on by name and expressions by the tags of their nodes, but what becomes
of the degree of one element is the same.  An operation on a set is, element by element, a node
put on top of the expression that gave the element its degree; the degree in the other set, zero
for an element that the other set lacks, is the right operand of the node.

* `Call` — a call of an operation with what it needs, and the node that it puts on top.
* `perform_eq_ok_iff` — these are all the calls that have a result.
* `perform_lifts` — one call keeps the elements, and gives each the degree of the node.
* **`chain_lifts`** — a chain of calls keeps the elements, and gives each the degree of the
  expression that grows along the chain.
-/

namespace FuzzyGates.FuzzySet

/-- A call of a set operation.  A complement may be passed a set, which plays no part in it. -/
inductive Call
  | complement (other : Option FuzzySet)
  | union (other : FuzzySet)
  | intersection (other : FuzzySet)
  | add (other : FuzzySet)
  | multi (other : FuzzySet)

namespace Call

/-- The name of the operation. -/
def operation : Call → String
  | complement _ => "complement"
  | union _ => "union"
  | intersection _ => "intersection"
  | add _ => "add"
  | multi _ => "multi"

/-- The set that is passed along. -/
def other? : Call → Option FuzzySet
  | complement t => t
  | union t | intersection t | add t | multi t => some t

/-- The node that the call puts on top of the expression of an element. -/
def lift (x : String) (e : Expr) : Call → Expr
  | complement _ => .complement e
  | union t => .join .or e (.value (t.membership x))
  | intersection t => .join .and e (.value (t.membership x))
  | add t => .join .add e (.value (t.membership x))
  | multi t => .join .mult e (.value (t.membership x))

end Call

/-- The set after a chain of calls, each on the result of the one before it. -/
def chain (s : FuzzySet) (calls : List Call) : Except ChoiceFault FuzzySet :=
  calls.foldlM (fun r c => r.perform c.operation c.other?) s

/-- The expression of an element after a chain of calls. -/
def liftAll (s : FuzzySet) (calls : List Call) (x : String) : Expr :=
  calls.foldl (fun e c => c.lift x e) (.value (s.membership x))

/-- An operation has a result exactly if it is called with the set it needs. -/
theorem perform_eq_ok_iff {s : FuzzySet} {operation : String} {other : Option FuzzySet} :
    (∃ r, s.perform operation other = .ok r) ↔
      ∃ c : Call, c.operation = operation ∧ c.other? = other := by
  constructor
  · rintro ⟨r, hr⟩
    cases hname : SetOperation.ofName? operation with
    | none => simp [perform, hname] at hr
    | some o =>
        have hneeds : o = .complement ∨ ∃ t, other = some t := by
          cases o <;> cases other <;> simp_all [perform]
        unfold SetOperation.ofName? at hname
        split at hname <;> cases hname
        · exact ⟨.complement other, rfl, rfl⟩
        all_goals obtain ⟨t, rfl⟩ := hneeds.resolve_left (by simp)
        · exact ⟨.union t, rfl, rfl⟩
        · exact ⟨.intersection t, rfl, rfl⟩
        · exact ⟨.add t, rfl, rfl⟩
        · exact ⟨.multi t, rfl, rfl⟩
  · rintro ⟨c, rfl, rfl⟩
    cases c <;> exact ⟨_, rfl⟩

/-! ### The degree of one element -/

variable {s : FuzzySet} {x : String}

theorem membership_mapEntries (hx : x ∈ s.degrees.keys) (f : String → Degree → Degree) :
    membership ⟨s.degrees.mapEntries f⟩ x = f x (s.membership x) := by
  obtain ⟨d, hd⟩ := Option.isSome_iff_exists.mp ((s.degrees.get?_isSome_iff x).mpr hx)
  simp [membership, OrderedMap.get?_mapEntries, hd]

theorem membership_complement (hx : x ∈ s.degrees.keys) :
    s.complement.membership x = (s.membership x).complement :=
  membership_mapEntries hx _

theorem membership_join (hx : x ∈ s.degrees.keys) (c : Connective) (t : FuzzySet) :
    (join c s t).membership x = c.apply (s.membership x) (t.membership x) :=
  membership_mapEntries hx _

/-- A node with a literal on its right joins the degree of its left operand with the literal. -/
theorem eval_join_value {env : Environment} {e : Expr} {d : Degree} (he : e.eval env = .ok d)
    (c : Connective) (u : Degree) :
    (Expr.join c e (.value u)).eval env = .ok (c.apply d u) := by
  simp only [Expr.eval, he]
  rfl

theorem eval_complement {env : Environment} {e : Expr} {d : Degree} (he : e.eval env = .ok d) :
    (Expr.complement e).eval env = .ok d.complement := by
  simp only [Expr.eval, he]
  rfl

/-- **A call puts a node on top of the expression of every element.**  It has a result with the
same elements, each with the degree of the node. -/
theorem perform_lifts (s : FuzzySet) (c : Call) :
    ∃ r, s.perform c.operation c.other? = .ok r ∧ r.degrees.keys = s.degrees.keys ∧
      ∀ x ∈ s.degrees.keys, ∀ (env : Environment) (e : Expr), e.eval env = .ok (s.membership x) →
        (c.lift x e).eval env = .ok (r.membership x) := by
  have hjoin : ∀ (k : Connective) (t : FuzzySet), ∀ x ∈ s.degrees.keys,
      ∀ (env : Environment) (e : Expr), e.eval env = .ok (s.membership x) →
        (Expr.join k e (.value (t.membership x))).eval env = .ok ((join k s t).membership x) := by
    intro k t x hx env e he
    rw [membership_join hx]
    exact eval_join_value he k (t.membership x)
  cases c with
  | complement t =>
      refine ⟨s.complement, rfl, keys_complement s, fun x hx env e he => ?_⟩
      rw [membership_complement hx]
      exact eval_complement he
  | union t => exact ⟨join .or s t, rfl, keys_join .or s t, hjoin .or t⟩
  | intersection t => exact ⟨join .and s t, rfl, keys_join .and s t, hjoin .and t⟩
  | add t => exact ⟨join .add s t, rfl, keys_join .add s t, hjoin .add t⟩
  | multi t => exact ⟨join .mult s t, rfl, keys_join .mult s t, hjoin .mult t⟩

/-! ### A chain of calls -/

/-- The calls of a chain put their nodes on top of one another. -/
theorem chain_lifts_from (s : FuzzySet) (calls : List Call) :
    ∃ r, s.chain calls = .ok r ∧ r.degrees.keys = s.degrees.keys ∧
      ∀ x ∈ s.degrees.keys, ∀ (env : Environment) (e : Expr), e.eval env = .ok (s.membership x) →
        (calls.foldl (fun e c => c.lift x e) e).eval env = .ok (r.membership x) := by
  induction calls generalizing s with
  | nil => exact ⟨s, rfl, rfl, fun x _ env e he => he⟩
  | cons c rest ih =>
      obtain ⟨t, ht, hkeys, hlift⟩ := perform_lifts s c
      obtain ⟨r, hr, hrest, hfold⟩ := ih t
      refine ⟨r, ?_, hrest.trans hkeys, fun x hx env e he => ?_⟩
      · unfold chain
        rw [List.foldlM_cons, ht]
        exact hr
      · rw [List.foldl_cons]
        exact hfold x (hkeys ▸ hx) env _ (hlift x hx env e he)

/-- **A chain of set operations is the pointwise lifting of an expression.**  It keeps the
elements in their order, and each ends with the degree that the expression of the element has in
any environment. -/
theorem chain_lifts (s : FuzzySet) (calls : List Call) :
    ∃ r, s.chain calls = .ok r ∧ r.degrees.keys = s.degrees.keys ∧
      ∀ x ∈ s.degrees.keys, ∀ env, (s.liftAll calls x).eval env = .ok (r.membership x) := by
  obtain ⟨r, hr, hkeys, hlift⟩ := chain_lifts_from s calls
  exact ⟨r, hr, hkeys, fun x hx env => hlift x hx env _ rfl⟩

/-- Elements that the other sets lack, or that only they have, and a complement in between. -/
theorem chain_lifts_three_calls :
    let s := ofList [("a", 0.25), ("b", 0.5)]
    let calls : List Call := [.add (ofList [("b", 0.75), ("c", 1.0)]), .complement none,
      .union (ofList [("a", 0.5)])]
    ∃ r, s.chain calls = .ok r ∧ r.toList = [("a", 0.75), ("b", 0.0)] ∧
      ∀ env, (s.liftAll calls "b").eval env = .ok (r.membership "b") := by
  intro s calls
  obtain ⟨r, hr, -, hlift⟩ := chain_lifts s calls
  have hresult : (s.chain calls).toOption.map toList = some [("a", 0.75), ("b", 0.0)] := by decide
  rw [hr] at hresult
  exact ⟨r, hr, Option.some.inj hresult, hlift "b" (by decide)⟩

end FuzzyGates.FuzzySet
