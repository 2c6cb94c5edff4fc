import FuzzyGates.Proofs.Session.Replay

/-!
# Loads do not warn

The one warning that a session logs is that an expression is being bound to a gate other than the
ambient one.  Loading a configuration binds every expression from inside a block of its gate, so
the warning is not logged, whatever the configuration, the session and the logger are, and however
the load ends.

* `Log.Journal.Unwarned` — how a journal goes on without the warning.
* `Session.Unwarned` — an operation does not warn inside given gate blocks; kept by sequencing, by
  iteration and by further blocks.
* `unwarned_assignExpression` — binding an expression to the ambient gate.
* **`unwarned_load`** — loading any configuration into any session.
-/

namespace FuzzyGates

variable {α β : Type}

namespace Log.Journal

/-- A journal goes on without a warning that an expression is bound outside the ambient gate. -/
def Unwarned (before after : Journal) : Prop :=
  ∃ records, after.records = before.records ++ records ∧
    ∀ gate ambient, Event.boundElsewhere gate ambient ∉ records

variable {j k l : Journal}

theorem Unwarned.of_records_eq (h : k.records = j.records) : Unwarned j k :=
  ⟨[], by rw [h, List.append_nil], fun _ _ => List.not_mem_nil⟩

theorem Unwarned.refl (j : Journal) : Unwarned j j := .of_records_eq rfl

theorem Unwarned.trans (h : Unwarned j k) (h' : Unwarned k l) : Unwarned j l := by
  obtain ⟨first, hfirst, hnone⟩ := h
  obtain ⟨second, hsecond, hnone'⟩ := h'
  refine ⟨first ++ second, by rw [hsecond, hfirst, List.append_assoc], fun gate ambient hmem => ?_⟩
  exact (List.mem_append.mp hmem).elim (hnone gate ambient) (hnone' gate ambient)

theorem Unwarned.note (j : Journal) {e : Event}
    (h : ∀ gate ambient, e ≠ .boundElsewhere gate ambient) : Unwarned j (j.note e) := by
  unfold Journal.note
  split
  · exact ⟨[e], rfl, fun gate ambient hmem => h gate ambient (List.mem_singleton.mp hmem).symm⟩
  · exact .refl j

end Log.Journal

namespace Session

open SessionM

/-- Inside the given gate blocks an operation stays inside them and does not warn. -/
def Unwarned (act : SessionM α) (stack : List Gate) : Prop :=
  ∀ ctx : Context, ctx.session.stack = stack →
    (act.run ctx).2.session.stack = stack ∧ ctx.journal.Unwarned (act.run ctx).2.journal

namespace Unwarned

variable {stack : List Gate}

theorem pure (a : α) : Unwarned (pure a) stack := fun ctx h => ⟨h, .refl ctx.journal⟩

theorem fail (e : Failure) : Unwarned (fail e : SessionM α) stack :=
  fun ctx h => ⟨h, .refl ctx.journal⟩

theorem lift (x : Except Failure α) : Unwarned (liftM x) stack :=
  fun ctx h => ⟨h, .refl ctx.journal⟩

theorem reading (f : Session → α) : Unwarned (reading f) stack :=
  fun ctx h => ⟨h, .refl ctx.journal⟩

theorem changing {f : Session → Session} (hf : ∀ s, (f s).stack = s.stack) :
    Unwarned (changing f) stack :=
  fun ctx h => ⟨(hf ctx.session).trans h, .refl ctx.journal⟩

theorem note {e : Log.Event} (he : ∀ gate ambient, e ≠ .boundElsewhere gate ambient) :
    Unwarned (note e) stack :=
  fun ctx h => ⟨h, .note ctx.journal he⟩

theorem configureLogging (level format : String) :
    Unwarned (configureLogging level format) stack :=
  fun _ h => ⟨h, .of_records_eq rfl⟩

theorem bind {x : SessionM α} {f : α → SessionM β} (hx : Unwarned x stack)
    (hf : ∀ a, Unwarned (f a) stack) : Unwarned (x >>= f) stack := by
  refine Relates.bind (R := fun c d => c.session.stack = stack → d.session.stack = stack ∧
    c.journal.Unwarned d.journal) (fun c d e hcd hde h => ?_) hx hf
  obtain ⟨hstack, hjournal⟩ := hcd h
  obtain ⟨hstack', hjournal'⟩ := hde hstack
  exact ⟨hstack', hjournal.trans hjournal'⟩

theorem after_lift {x : Except Failure α} {f : α → SessionM β}
    (h : ∀ a, x = .ok a → Unwarned (f a) stack) : Unwarned (liftM x >>= f) stack := by
  intro ctx hctx
  rw [run_bind, run_lift]
  cases x with
  | ok a => exact h a rfl ctx hctx
  | error e => exact ⟨hctx, .refl ctx.journal⟩

/-- What is read off is that of a session inside the blocks. -/
theorem after_reading {g : Session → α} {f : α → SessionM β}
    (h : ∀ s : Session, s.stack = stack → Unwarned (f (g s)) stack) :
    Unwarned (SessionM.reading g >>= f) stack := by
  intro ctx hctx
  rw [run_bind, run_reading]
  exact h ctx.session hctx ctx hctx

theorem discard {act : SessionM α} (h : Unwarned act stack) :
    Unwarned (Functor.discard act) stack :=
  -- mapping over a result is binding it first
  h.bind fun _ => pure _

theorem forM {l : List α} {f : α → SessionM Unit} (h : ∀ a, Unwarned (f a) stack) :
    Unwarned (l.forM f) stack := by
  induction l with
  | nil => exact pure ()
  | cons a rest ih => exact (h a).bind fun _ => ih

/-- The gate is the ambient one inside its block, and the block is left again. -/
theorem withGate {g : Gate} {act : SessionM α} (h : Unwarned act (stack ++ [g])) :
    Unwarned (withGate g act) stack := by
  intro ctx hctx
  have henter : ctx.journal.Unwarned (ctx.enterGate g).journal := .note ctx.journal (by nofun)
  have hinside : (ctx.enterGate g).session.stack = stack ++ [g] := congrArg (· ++ [g]) hctx
  obtain ⟨hstack, hjournal⟩ := h (ctx.enterGate g) hinside
  rw [run_withGate]
  refine ⟨?_, (henter.trans hjournal).trans (.note _ (by nofun))⟩
  show ((act.run (ctx.enterGate g)).2.session.stack).take ctx.session.stack.length = stack
  rw [hstack, hctx, List.take_left]

end Unwarned

/-! ### The operations of a load -/

variable {stack : List Gate}

theorem unwarned_evaluate (d : Document) : Unwarned (evaluate d) stack := by
  refine (Unwarned.lift _).bind fun e => (Unwarned.reading _).bind fun env => ?_
  refine (Unwarned.forM fun p => .note (by nofun)).bind fun _ => ?_
  cases e.eval env with
  | ok x => exact .pure x
  | error err => exact .fail _

theorem unwarned_assignIn (name : String) (value : Degree) (scope : String) :
    Unwarned (assignIn name value scope) stack := by
  refine .bind (.changing fun s => ?_) fun _ => .note (by nofun)
  rfl

theorem unwarned_bindExpr (g : Gate) (e : Expr) : Unwarned (bindExpr g e) stack := by
  refine .bind (.changing fun s => ?_) fun _ => .note (by nofun)
  rfl

theorem unwarned_assignValue (target expr gate : Document) :
    Unwarned (assignValue target expr gate) stack := by
  have hassign (name : Name) (scope : Scope) : Unwarned (do
      let x ← evaluate expr
      assignIn name.text x scope.name
      return x) stack :=
    (unwarned_evaluate expr).bind fun x => (unwarned_assignIn _ x _).bind fun _ => .pure x
  refine (Unwarned.lift _).bind fun name => ?_
  dsimp only
  split
  · exact (Unwarned.reading _).bind (hassign name)
  · exact (Unwarned.lift _).bind (hassign name)

/-- The warning is left out when an expression is bound to the ambient gate. -/
theorem unwarned_assignExpression {g : Gate} (h : stack.getLast? = some g) (d : Document) :
    Unwarned (assignExpression (.ofText g.name) d) stack := by
  refine .after_lift fun scope hscope => .after_reading fun s hs => ?_
  obtain rfl : Scope.gate g = scope := Except.ok.inj ((targetScope_ofText g).symm.trans hscope)
  have hambient : s.ambient = .gate g := by
    unfold ambient
    rw [hs, h]
  rw [hambient]
  dsimp only
  rw [if_neg (fun hne => hne rfl)]
  exact (Unwarned.lift _).bind fun e => (Unwarned.lift _).bind fun g => unwarned_bindExpr g e

theorem unwarned_loadDegrees (degrees : OrderedMap String Number) (scope : Document) :
    Unwarned (loadDegrees degrees scope) stack :=
  .forM fun _ => .discard (unwarned_assignValue _ _ _)

theorem unwarned_loadGate (g : Gate) (c : GateConfig) : Unwarned (loadGate g c) stack := by
  refine .withGate ((unwarned_loadDegrees c.degrees _).bind fun _ => ?_)
  cases c.expression with
  | some e => exact unwarned_assignExpression List.getLast?_concat _
  | none => exact .pure ()

theorem unwarned_applyLogging (o : LoggingOptions) : Unwarned (applyLogging o) stack := by
  unfold applyLogging
  split
  · exact .configureLogging _ _
  · exact .pure ()

/-- **A load never warns**, whatever blocks it starts in and however it ends. -/
theorem unwarned_load (c : Config) : Unwarned (load c) stack := by
  have hgates : Unwarned (c.gates.entries.forM fun p => loadGate p.1 p.2) stack :=
    .forM fun p => unwarned_loadGate p.1 p.2
  refine (unwarned_applyLogging c.logging).bind fun _ => ?_
  refine (unwarned_loadDegrees c.globals _).bind fun _ => ?_
  exact hgates.bind fun _ => .note (by nofun)

end Session

end FuzzyGates
