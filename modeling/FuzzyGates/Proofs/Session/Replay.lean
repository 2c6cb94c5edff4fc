import FuzzyGates.Proofs.OrderedMap.Overlay
import FuzzyGates.Proofs.Session.Contents

/-!
# How assignments lead on

An operation ends on a session with a result and a session, whatever has been logged before, and
operations in a row end one after the other.  The assignments of a gate put its degrees into its
scope, which is created if need be, and its expression into the registry.  So gates that are put
into a session one after the other are laid over what it holds; a gate without variables gets no
scope.

* `Ends`, `Leads` — how an operation ends on a session, and what a successful one leads to.
* `leads_assignValue`, `leads_assignExpression` — what single assignments lead to.
* `Environment.assignAll` — what assigning the degrees of one scope amounts to.
* `Session.put` — the session after the assignments of a gate.
* **`scopes_foldl_put`**, **`registry_foldl_put`** — what gates leave in a session that are put
  into it one after the other.
-/

namespace FuzzyGates

open SessionM

variable {α β : Type}

/-! ### How an operation ends -/

/-- An operation ends on a session with a result and a session, whatever has been logged. -/
def Ends (act : SessionM α) (s : Session) (r : Except Failure α) (t : Session) : Prop :=
  ∀ journal, ∃ journal', act.run ⟨s, journal⟩ = (r, ⟨t, journal'⟩)

/-- An operation succeeds and leads from one session to another, whatever has been logged. -/
def Leads (act : SessionM α) (s t : Session) (a : α) : Prop :=
  ∀ journal, ∃ journal', act.run ⟨s, journal⟩ = (.ok a, ⟨t, journal'⟩)

namespace Ends

variable {s t u : Session}

theorem lift (x : Except Failure α) (s : Session) : Ends (liftM x) s x s :=
  fun journal => ⟨journal, rfl⟩

theorem bind_ok {x : SessionM α} {f : α → SessionM β} {a : α} {r : Except Failure β}
    (hx : Leads x s t a) (hf : Ends (f a) t r u) : Ends (x >>= f) s r u := by
  intro journal
  obtain ⟨between, hfirst⟩ := hx journal
  obtain ⟨after, hsecond⟩ := hf between
  refine ⟨after, ?_⟩
  rw [run_bind, hfirst]
  exact hsecond

theorem bind_error {x : SessionM α} {f : α → SessionM β} {e : Failure}
    (hx : Ends x s (.error e) t) : Ends (x >>= f) s (.error e) t := by
  intro journal
  obtain ⟨after, hfirst⟩ := hx journal
  refine ⟨after, ?_⟩
  rw [run_bind, hfirst]

theorem discard {act : SessionM α} {e : Failure} (h : Ends act s (.error e) t) :
    Ends (Functor.discard act) s (.error e) t :=
  -- mapping over a result is binding it first
  bind_error h

theorem withGate {g : Gate} {act : SessionM α} {r : Except Failure α}
    (h : Ends act { s with stack := s.stack ++ [g] } r t) :
    Ends (Session.withGate g act) s r { t with stack := t.stack.take s.depth } := by
  intro journal
  obtain ⟨after, hrun⟩ := h (journal.note (.enteredGate g s.ambient))
  have hbody : act.run (Context.enterGate g ⟨s, journal⟩) = (r, ⟨t, after⟩) := hrun
  rw [run_withGate, hbody]
  exact ⟨_, rfl⟩

end Ends

namespace Leads

variable {s t u : Session}

theorem pure (s : Session) (a : α) : Leads (pure a) s s a := fun journal => ⟨journal, rfl⟩

theorem note (s : Session) (e : Log.Event) : Leads (SessionM.note e) s s () := fun _ => ⟨_, rfl⟩

theorem reading (s : Session) (f : Session → α) : Leads (SessionM.reading f) s s (f s) :=
  fun journal => ⟨journal, rfl⟩

theorem changing (s : Session) (f : Session → Session) : Leads (SessionM.changing f) s (f s) () :=
  fun journal => ⟨journal, rfl⟩

theorem lift {x : Except Failure α} {a : α} (h : x = .ok a) (s : Session) :
    Leads (liftM x) s s a := fun journal => ⟨journal, by rw [run_lift, h]⟩

theorem bind {x : SessionM α} {f : α → SessionM β} {a : α} {b : β} (hx : Leads x s t a)
    (hf : Leads (f a) t u b) : Leads (x >>= f) s u b := Ends.bind_ok hx hf

theorem discard {act : SessionM α} {a : α} (h : Leads act s t a) :
    Leads (Functor.discard act) s t () :=
  -- mapping over a result is binding it first
  h.bind (pure t ())

end Leads

/-! ### Single assignments -/

namespace Session

theorem leads_evaluate_float (s : Session) (x : Degree) :
    Leads (evaluate (.atom (.float x))) s s x := by
  have hexpr : Expr.ofDocument (.atom (.float x)) = .ok (.value x) := rfl
  refine (Leads.lift hexpr s).bind ((Leads.reading s env).bind ?_)
  exact (Leads.pure s ()).bind (Leads.pure s x)

theorem targetName_ofText {name : String} (h : name ≠ "") :
    targetName (.ofText name) = .ok ⟨name, h⟩ := by
  simp [targetName, Document.ofText, Name.ofText?, h]

theorem targetScope_global : targetScope (.ofText globalScope) = .ok .global := rfl

theorem scope_ofDocument_ofText (g : Gate) :
    Scope.ofDocument (.ofText g.name) = .ok (.gate g) := by
  simp [Scope.ofDocument, Document.ofText, Scope.ofName?, g.nonempty, g.not_global]

theorem targetScope_ofText (g : Gate) : targetScope (.ofText g.name) = .ok (.gate g) := by
  unfold targetScope
  rw [scope_ofDocument_ofText]
  rfl

/-- The scope that an argument of an assignment stands for in a session. -/
def Denotes (s : Session) (d : Document) (scope : Scope) : Prop :=
  d = .ofText globalScope ∧ scope = .global ∨ d = .atom .null ∧ scope = s.ambient

/-- Assigning a number to a variable binds the variable. -/
theorem leads_assignValue {s : Session} {d : Document} {scope : Scope} (hscope : Denotes s d scope)
    {name : String} (hname : name ≠ "") (x : Degree) :
    Leads (assignValue (.ofText name) (.atom (.float x)) d) s
      { s with env := s.env.assign name x scope.name } x := by
  have hassign (scope : Scope) : Leads (do
      let x ← evaluate (.atom (.float x))
      assignIn name x scope.name
      return x) s { s with env := s.env.assign name x scope.name } x :=
    (leads_evaluate_float s x).bind (((Leads.changing s _).bind (Leads.note _ _)).bind
      (Leads.pure _ x))
  refine (Leads.lift (targetName_ofText hname) s).bind ?_
  rcases hscope with ⟨rfl, rfl⟩ | ⟨rfl, rfl⟩
  · exact (Leads.lift targetScope_global s).bind (hassign .global)
  · exact (Leads.reading s ambient).bind (hassign s.ambient)

/-- Assigning an expression to the ambient gate binds it there, without a warning. -/
theorem leads_assignExpression {s : Session} {g : Gate} (h : s.ambient = .gate g) (e : Expr) :
    Leads (assignExpression (.ofText g.name) (.ofExpr e)) s
      { s with registry := s.registry.insert g e } () := by
  have hexpr : Expr.ofDocument (.ofExpr e) = .ok e := rfl
  have hgate : (Scope.gate g).toGate = .ok g := rfl
  refine (Leads.lift (targetScope_ofText g) s).bind ((Leads.reading s ambient).bind ?_)
  rw [h]
  dsimp only
  rw [if_neg (fun hne => hne rfl)]
  exact (Leads.lift hexpr s).bind ((Leads.lift hgate s).bind
    ((Leads.changing s _).bind (Leads.note _ _)))

end Session

/-! ### The assignments of a gate -/

/-- The environment after assigning the degrees of one scope one after the other. -/
def Environment.assignAll (env : Environment) (scope : String) (l : List (String × Degree)) :
    Environment :=
  l.foldl (fun env p => env.assign p.1 p.2 scope) env

namespace Session

/-- The session after the assignments of a gate. -/
def put (s : Session) (c : GateContents) : Session where
  env := s.env.assignAll c.gate.name c.degrees.entries
  registry :=
    match c.expression with
    | some e => s.registry.insert c.gate e
    | none => s.registry
  stack := s.stack

end Session

/-! ### What the assignments leave -/

namespace Environment

theorem assignAll_global (env : Environment) (l : List (String × Degree)) :
    env.assignAll globalScope l =
      { env with globals := l.foldl (fun m p => m.insert p.1 p.2) env.globals } := by
  induction l generalizing env with
  | nil => rfl
  | cons p rest ih => exact ih _

theorem globals_assignAll (env : Environment) {scope : String} (h : scope ≠ globalScope)
    (l : List (String × Degree)) : (env.assignAll scope l).globals = env.globals := by
  induction l generalizing env with
  | nil => rfl
  | cons p rest ih => exact (ih _).trans (globals_assign env h p.1 p.2)

/-- Assigning the degrees of a gate binds the scope of the gate once, to all of them. -/
theorem scopes_assignAll (env : Environment) {scope : String} (h : scope ≠ globalScope)
    (p : String × Degree) (l : List (String × Degree)) :
    (env.assignAll scope (p :: l)).scopes =
      env.scopes.insert scope ((p :: l).foldl (fun m p => m.insert p.1 p.2) (env.scope scope)) := by
  induction l generalizing env p with
  | nil => exact scopes_assign env h p.1 p.2
  | cons q rest ih =>
      have hscope : (env.assign p.1 p.2 scope).scope scope = (env.scope scope).insert p.1 p.2 := by
        show Option.getD _ _ = _
        rw [scopes_assign env h, OrderedMap.get?_insert_self]
        rfl
      have hrest := ih (env.assign p.1 p.2 scope) q
      rw [scopes_assign env h, OrderedMap.insert_insert, hscope] at hrest
      exact hrest

end Environment

/-- The scope that a gate has if it has variables. -/
def GateContents.scope? (c : GateContents) : Option (String × Bindings) :=
  if c.degrees.entries = [] then none else some (c.gate.name, c.degrees)

/-- The expression of a gate with the gate. -/
def GateContents.binding? (c : GateContents) : Option (Gate × Expr) :=
  c.expression.map fun e => (c.gate, e)

theorem GateContents.fst_of_mem_scope? (c : GateContents) : ∀ p ∈ c.scope?, p.1 = c.gate.name := by
  intro p hp
  unfold scope? at hp
  split at hp
  · cases hp
  · cases hp
    rfl

theorem GateContents.fst_of_mem_binding? (c : GateContents) : ∀ p ∈ c.binding?, p.1 = c.gate := by
  intro p hp
  obtain ⟨e, -, rfl⟩ := Option.map_eq_some_iff.mp hp
  rfl

namespace Session

theorem globals_foldl_put (cs : List GateContents) (s : Session) :
    (cs.foldl put s).env.globals = s.env.globals := by
  induction cs generalizing s with
  | nil => rfl
  | cons c rest ih =>
      exact (ih (s.put c)).trans (s.env.globals_assignAll c.gate.not_global _)

theorem stack_foldl_put (cs : List GateContents) (s : Session) :
    (cs.foldl put s).stack = s.stack := by
  induction cs generalizing s with
  | nil => rfl
  | cons c rest ih => exact ih (s.put c)

/-- The scope of a gate, if it has one, is merged into that which the session has for it. -/
theorem scopes_put (s : Session) (c : GateContents) :
    (s.put c).env.scopes =
      c.scope?.toList.foldl (fun m p => m.mergeAt OrderedMap.overlay p.1 p.2) s.env.scopes := by
  show (s.env.assignAll c.gate.name c.degrees.entries).scopes = _
  unfold GateContents.scope?
  cases hdegrees : c.degrees.entries with
  | nil => rfl
  | cons p rest =>
      rw [if_neg (List.cons_ne_nil p rest), Environment.scopes_assignAll _ c.gate.not_global,
        ← hdegrees, OrderedMap.foldl_insert]
      show _ = s.env.scopes.mergeAt OrderedMap.overlay c.gate.name c.degrees
      unfold Environment.scope OrderedMap.mergeAt
      cases s.env.scopes.get? c.gate.name with
      | some b => rfl
      | none =>
          exact congrArg (s.env.scopes.insert c.gate.name) (OrderedMap.empty_overlayWith _ _)

theorem registry_put (s : Session) (c : GateContents) :
    (s.put c).registry = c.binding?.toList.foldl (fun m p => m.insert p.1 p.2) s.registry := by
  unfold put GateContents.binding?
  cases c.expression <;> rfl

/-- The scopes of gates that are put into a session are laid over those that it has. -/
theorem scopes_foldl_put {cs : List GateContents} {scopes : OrderedMap String Bindings}
    (h : scopes.entries = cs.filterMap GateContents.scope?) (s : Session) :
    (cs.foldl put s).env.scopes = s.env.scopes.overlayWith OrderedMap.overlay scopes := by
  rw [← OrderedMap.foldl_mergeAt, h, List.filterMap_eq_flatMap_toList, List.foldl_flatMap]
  exact (List.foldl_hom (fun s : Session => s.env.scopes) fun s c => (scopes_put s c).symm).symm

/-- The expressions of gates that are put into a session are laid over those that it has. -/
theorem registry_foldl_put {cs : List GateContents} {expressions : Registry}
    (h : expressions.entries = cs.filterMap GateContents.binding?) (s : Session) :
    (cs.foldl put s).registry = s.registry.overlay expressions := by
  rw [← OrderedMap.foldl_insert, h, List.filterMap_eq_flatMap_toList, List.foldl_flatMap]
  exact (List.foldl_hom registry fun s c => (registry_put s c).symm).symm

end Session

end FuzzyGates
