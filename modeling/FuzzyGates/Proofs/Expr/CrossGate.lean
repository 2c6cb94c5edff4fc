import FuzzyGates.Proofs.Environment.Lookup
import FuzzyGates.Proofs.Expr.FirstFault

/-!
# What a report on cross-gate reads guarantees

On behalf of a gate, an analysis sorts the variables of an expression into those without a
source, those that would be read from another gate's scope, and the rest, which the gate sees
itself.  If there are none but the rest, the expression needs only the global bindings and the
scope of the gate.

* `Splits` — three classes of the members of a list.
* `splits_analyze` — the three classes of an analysis.
* `resolve?_keepGate` — with one gate scope kept, names resolve to what the gate sees.
* `eval_congr` — an evaluation depends on how the variables resolve.
* **`cross_gate_report`** — the classes, what they say about each variable, and the evaluation
  without the other gates.
-/

namespace FuzzyGates

/-! ### Three classes of names -/

/-- Three classes of the members of a list, each in the order of the list.  Every member is in
one class only, and there once. -/
structure Splits {α : Type} (members first second third : List α) : Prop where
  first_sublist : first.Sublist members
  second_sublist : second.Sublist members
  third_sublist : third.Sublist members
  perm : (first ++ second ++ third).Perm members
  nodup : (first ++ second ++ third).Nodup

theorem splits_filter {α : Type} {l : List α} (hl : l.Nodup) {p q : α → Bool}
    (hpq : ∀ a ∈ l, p a = true → q a = false) :
    Splits l (l.filter p) (l.filter q) (l.filter fun a => !p a && !q a) := by
  have hsecond : l.filter q = (l.filter fun a => !p a).filter q := by
    rw [List.filter_filter]
    refine List.filter_congr fun a ha => ?_
    cases hp : p a with
    | false => simp
    | true => simp [hpq a ha hp]
  have hthird : (l.filter fun a => !p a && !q a) =
      (l.filter fun a => !p a).filter fun a => !q a := by
    rw [List.filter_filter]
    exact List.filter_congr fun a _ => Bool.and_comm _ _
  have hperm : (l.filter p ++ l.filter q ++ l.filter fun a => !p a && !q a).Perm l := by
    rw [hthird, hsecond, List.append_assoc]
    exact ((List.filter_append_perm q _).append_left _).trans (List.filter_append_perm p l)
  exact ⟨List.filter_sublist, List.filter_sublist, List.filter_sublist, hperm,
    hperm.nodup_iff.mpr hl⟩

theorem nodup_eraseDups {α : Type} [DecidableEq α] : (l : List α) → l.eraseDups.Nodup
  | [] => List.nodup_nil
  | a :: rest => by
      rw [List.eraseDups_cons, List.nodup_cons]
      exact ⟨by simp [List.mem_eraseDups], nodup_eraseDups (rest.filter fun b => !b == a)⟩
termination_by l => l.length
decreasing_by exact Nat.lt_succ_of_le (List.length_filter_le _ _)

/-- The variables that an analysis lists neither as unresolved nor as read across gates. -/
def Analysis.ownReads (a : Analysis) : List String :=
  a.names.filter fun x => x ∉ a.unresolved ∧ x ∉ a.crossGateReads

namespace Environment

/-! ### One gate scope and the global bindings -/

/-- The environment with the global bindings and the scope of one gate. -/
def keepGate (env : Environment) (gate : String) : Environment where
  globals := env.globals
  scopes := {
    entries := env.scopes.entries.filter fun p => p.1 = gate
    nodup_keys := (List.filter_sublist.map Prod.fst).nodup env.scopes.nodup_keys }
  global_not_scope h := env.global_not_scope ((List.filter_sublist.map Prod.fst).subset h)

theorem binds_keepGate {env : Environment} {gate other name : String} :
    (env.keepGate gate).Binds other name ↔ other = gate ∧ env.Binds other name := by
  rw [binds_iff, binds_iff]
  constructor
  · rintro ⟨b, hb, hname⟩
    obtain ⟨hmem, hgate⟩ := List.mem_filter.mp hb
    exact ⟨of_decide_eq_true hgate, b, hmem, hname⟩
  · rintro ⟨hgate, b, hmem, hname⟩
    exact ⟨b, List.mem_filter.mpr ⟨hmem, decide_eq_true hgate⟩, hname⟩

/-- **With one gate scope kept, names resolve to what the gate sees.** -/
theorem resolve?_keepGate (env : Environment) (gate name : String) :
    (env.keepGate gate).resolve? name = env.testGate? gate name := by
  rw [testGate?_eq]
  rcases firstBinder_or_unscoped (env.keepGate gate) name with ⟨other, x, hfirst⟩ | hunscoped
  · obtain ⟨rfl, hbinds⟩ := binds_keepGate.mp hfirst.binds
    obtain ⟨b, hb, -⟩ := binds_iff.mp hfirst.binds
    have hx : (env.scope other).get? name = some x := by
      rw [scope_of_mem (List.mem_filter.mp hb).1, ← scope_of_mem hb, hfirst.get?_scope]
    rw [hfirst.resolve?_eq, hx]
    rfl
  · have hnone : (env.scope gate).get? name = none :=
      Option.not_isSome_iff_eq_none.mp fun h => hunscoped gate (binds_keepGate.mpr ⟨rfl, h⟩)
    rw [hunscoped.resolve?_eq, hnone]
    rfl

end Environment

namespace Expr

variable {env : Environment} {gate : String} {e : Expr} {x : String}

/-! ### The classes of an analysis -/

/-- The variable would be read from a gate scope other than the given one. -/
def readsAcross (env : Environment) (gate : Option String) (x : String) : Bool :=
  (env.resolveScope? x).any (isForeign gate)

theorem unresolved_analyze (e : Expr) (env : Environment) (gate : Option String) :
    (e.analyze (some env) gate).unresolved =
      (e.analyze (some env) gate).names.filter fun x => (env.resolveScope? x).isNone := by
  unfold analyze
  dsimp only
  rw [List.filterMap_map, ← List.filterMap_eq_filter]
  refine List.filterMap_congr fun x _ => ?_
  simp [Option.guard]

theorem crossGateReads_analyze (e : Expr) (env : Environment) (gate : Option String) :
    (e.analyze (some env) gate).crossGateReads =
      (e.analyze (some env) gate).names.filter (readsAcross env gate) := by
  unfold analyze
  dsimp only
  rw [List.filterMap_map, ← List.filterMap_eq_filter]
  refine List.filterMap_congr fun x _ => ?_
  cases hscope : env.resolveScope? x <;> simp [readsAcross, hscope, Option.guard]

theorem nodup_names_analyze (e : Expr) (env : Option Environment) (gate : Option String) :
    (e.analyze env gate).names.Nodup :=
  List.Pairwise.map Name.text (fun _ _ hne h => hne (Name.ext h)) (nodup_eraseDups _)

/-- **An analysis sorts the variables into three classes.** -/
theorem splits_analyze (e : Expr) (env : Environment) (gate : Option String) :
    let a := e.analyze (some env) gate
    Splits a.names a.unresolved a.crossGateReads a.ownReads := by
  intro a
  have hsplits := splits_filter (nodup_names_analyze e (some env) gate)
    (p := fun x => (env.resolveScope? x).isNone) (q := readsAcross env gate) (by
      intro x _ hnone
      simp [readsAcross, Option.isNone_iff_eq_none.mp hnone])
  rw [← unresolved_analyze, ← crossGateReads_analyze] at hsplits
  convert hsplits using 1
  refine List.filter_congr fun x hx => ?_
  have hx : x ∈ (e.analyze (some env) gate).names := hx
  cases hscope : env.resolveScope? x <;>
    simp [a, unresolved_analyze, crossGateReads_analyze, hx, hscope]

/-! ### What the classes say -/

theorem resolve?_of_mem_unresolved (h : x ∈ (e.analyze (some env) (some gate)).unresolved) :
    env.resolve? x = none := by
  rw [unresolved_analyze, List.mem_filter] at h
  exact Environment.resolveScope?_eq_none_iff.mp (Option.isNone_iff_eq_none.mp h.2)

/-- A variable that is read across gates has its source in another gate's scope. -/
theorem exists_source_of_mem_crossGateReads
    (h : x ∈ (e.analyze (some env) (some gate)).crossGateReads) :
    ∃ other d, other ≠ gate ∧ env.FirstBinder x other d := by
  rw [crossGateReads_analyze, List.mem_filter, readsAcross, Option.any_eq_true] at h
  obtain ⟨-, other, hscope, hforeign⟩ := h
  simp only [isForeign, Bool.and_eq_true, decide_eq_true_eq, ne_eq, Option.some.injEq] at hforeign
  rcases Environment.resolveScope?_eq_some_iff.mp hscope with ⟨d, hfirst⟩ | ⟨hglobal, -⟩
  · exact ⟨other, d, hforeign.2, hfirst⟩
  · exact absurd hglobal hforeign.1

/-- A variable of the rest resolves to what the gate sees. -/
theorem exists_value_of_mem_ownReads (h : x ∈ (e.analyze (some env) (some gate)).ownReads) :
    ∃ d, env.resolve? x = some d ∧ env.testGate? gate x = some d := by
  rw [Analysis.ownReads, unresolved_analyze, crossGateReads_analyze, List.mem_filter] at h
  obtain ⟨hname, hrest⟩ := h
  simp only [List.mem_filter, hname, true_and, decide_eq_true_eq] at hrest
  obtain ⟨scope, hscope⟩ := Option.ne_none_iff_exists'.mp
    fun hnone => hrest.1 (Option.isNone_iff_eq_none.mpr hnone)
  obtain ⟨d, hd, hsees⟩ := Environment.exists_resolve?_eq_testGate? hscope
  refine ⟨d, hd, ?_⟩
  by_cases hgate : scope = gate
  · exact hgate ▸ hsees
  · -- not the gate's own scope and not another gate's, so the global one
    have hglobal : scope = globalScope := by
      by_contra hne
      exact hrest.2 (by simp [readsAcross, hscope, isForeign, hne, hgate])
    rcases Environment.resolveScope?_eq_some_iff.mp hscope with ⟨_, hfirst⟩ | ⟨-, hunscoped, -⟩
    · exact absurd hglobal hfirst.binds.ne_global
    · rw [hunscoped.testGate?_eq, ← hunscoped.resolve?_eq, hd]

/-! ### Evaluation without the other gates -/

/-- **An evaluation depends on how the variables resolve**, and on nothing else. -/
theorem eval_congr {env' : Environment}
    (h : ∀ n ∈ e.names, env.resolve? n.text = env'.resolve? n.text) :
    e.eval env = e.eval env' := by
  have hwalk : ∀ n, var n ∈ e.walk → env.resolve? n.text = env'.resolve? n.text :=
    fun n hn => h n (mem_names_iff.mpr hn)
  clear h
  induction e with
  | value x => rfl
  | var n => simp only [eval, hwalk n (by simp [walk])]
  | join c l r ihl ihr =>
      have hl := ihl fun n hn => hwalk n (by simp [walk, hn])
      have hr := ihr fun n hn => hwalk n (by simp [walk, hn])
      simp only [eval, hl, hr]
  | complement e ih => simp only [eval, ih fun n hn => hwalk n (by simp [walk, hn])]
  | alphaCut e t ih => simp only [eval, ih fun n hn => hwalk n (by simp [walk, hn])]
  | bareUnary e ih => rfl
  | bareBinary l r ihl ihr => rfl

theorem eval_keepGate (hunresolved : (e.analyze (some env) (some gate)).unresolved = [])
    (hcross : (e.analyze (some env) (some gate)).crossGateReads = []) :
    e.eval (env.keepGate gate) = e.eval env := by
  refine eval_congr fun n hn => ?_
  have hown : n.text ∈ (e.analyze (some env) (some gate)).ownReads := by
    rw [Analysis.ownReads, hunresolved, hcross, List.mem_filter]
    exact ⟨List.mem_map_of_mem hn, by simp⟩
  obtain ⟨d, hd, hsees⟩ := exists_value_of_mem_ownReads hown
  rw [Environment.resolve?_keepGate, hsees, hd]

/-- **What the report guarantees.**  On behalf of a gate the variables of an expression fall into
three classes: those that do not resolve, those that are read from the scope of another gate, and
the rest, which resolve to what the gate sees.  If all are of the last class, the expression has
a degree, which it also has without the scopes of the other gates. -/
theorem cross_gate_report (e : Expr) (h : e.Concrete) (env : Environment) (gate : String) :
    let a := e.analyze (some env) (some gate)
    a.names = e.names.map Name.text ∧
      Splits a.names a.unresolved a.crossGateReads a.ownReads ∧
      (∀ x ∈ a.unresolved, env.resolve? x = none) ∧
      (∀ x ∈ a.crossGateReads, ∃ other d, other ≠ gate ∧ other ∈ env.scopes.keys ∧
        env.resolveScope? x = some other ∧ env.resolve? x = some d ∧
        (env.scope other).get? x = some d) ∧
      (∀ x ∈ a.ownReads, ∃ d, env.resolve? x = some d ∧ env.testGate? gate x = some d) ∧
      (a.unresolved = [] → a.crossGateReads = [] →
        ∃ d, e.eval env = .ok d ∧ e.eval (env.keepGate gate) = .ok d) := by
  intro a
  refine ⟨rfl, splits_analyze e env (some gate), fun x hx => resolve?_of_mem_unresolved hx, ?_,
    fun x hx => exists_value_of_mem_ownReads hx, ?_⟩
  · intro x hx
    obtain ⟨other, d, hne, hfirst⟩ := exists_source_of_mem_crossGateReads hx
    obtain ⟨b, hb, -⟩ := Environment.binds_iff.mp hfirst.binds
    exact ⟨other, d, hne, List.mem_map_of_mem hb, hfirst.resolveScope?_eq, hfirst.resolve?_eq,
      hfirst.get?_scope⟩
  · intro hunresolved hcross
    have hfault := firstFault_eq_map_head?_unresolved env (some gate) h
    rw [hunresolved] at hfault
    obtain ⟨d, hd⟩ := (exists_eval_eq_ok_iff env e).mpr hfault
    exact ⟨d, hd, (eval_keepGate hunresolved hcross).trans hd⟩

/-- A name in two gates, a name in the gate asked for, a global name and an unbound one; and an
expression that needs no other gate. -/
theorem cross_gate_report_two_gates :
    let env := ((((∅ : Environment).assign "x" 0.1 "a").assign "x" 0.2 "b").assign "y" 0.3
      "b").assign "z" 0.4 globalScope
    let x : Expr := .var ⟨"x", by decide⟩
    let y : Expr := .var ⟨"y", by decide⟩
    let z : Expr := .var ⟨"z", by decide⟩
    let unbound : Expr := .var ⟨"u", by decide⟩
    let mixed := join .or (join .add x y) (join .or z (complement unbound))
    let own := join .and y (alphaCut z 0.25)
    let a := mixed.analyze (some env) (some "b")
    mixed.Concrete ∧ own.Concrete ∧
      (a.unresolved = ["u"] ∧ a.crossGateReads = ["x"] ∧ a.ownReads = ["y", "z"]) ∧
      Splits a.names a.unresolved a.crossGateReads a.ownReads ∧
      ∃ d, own.eval env = .ok d ∧ own.eval (env.keepGate "b") = .ok d := by
  intro env x y z unbound mixed own a
  have hmixed : mixed.Concrete := by decide
  have hown : own.Concrete := by decide
  obtain ⟨-, hsplits, -⟩ := cross_gate_report mixed hmixed env "b"
  obtain ⟨-, -, -, -, -, hvalue⟩ := cross_gate_report own hown env "b"
  exact ⟨hmixed, hown, by decide, hsplits, hvalue (by decide) (by decide)⟩

end Expr

end FuzzyGates
