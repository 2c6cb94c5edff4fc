import FuzzyGates.Proofs.Config.Assignments
import FuzzyGates.Proofs.Log.Configuring
import FuzzyGates.Proofs.Program.Loading
import FuzzyGates.Proofs.Session.Replay

/-!
# Loading a configuration, one assignment after the other

Loading makes the assignments of a configuration in order and stops at the first one that is
refused.  Nothing is taken back then: what was assigned before stays assigned.  Only the gate
blocks are left, however the load ends.

* `Amounts` — an operation amounts to a list of assignments; kept by sequencing, by iteration
  and by gate blocks.
* `LoggingOptions.refusal?` — why options for logging are refused, before anything is assigned.
* `run_applyLogging` — what applying the options for logging comes to.
* `ends_load` — how every load ends.
* **`load_assigns_until_refused`** — a load assigns everything, or what precedes a refusal.
-/

namespace FuzzyGates

open SessionM

variable {α : Type}

open Config (Assignment degreeAssignments gateAssignments)
open Config.Assignment (putAll untilRefused firstRefusal outcome)

/-! ### Operations that amount to assignments -/

/-- Inside the given gate blocks an operation makes the assignments up to the first one that is
refused, and fails with its refusal. -/
def Amounts (act : SessionM Unit) (as : List Assignment) (stack : List Gate) : Prop :=
  ∀ s : Session, s.stack = stack → Ends act s (outcome as) (putAll (untilRefused as) s)

namespace Amounts

variable {stack : List Gate}

theorem nil : Amounts (pure ()) [] stack := fun s _ => Leads.pure s ()

/-- An operation that makes one assignment, or is refused without a trace. -/
theorem single {act : SessionM Unit} {a : Assignment}
    (h : ∀ s : Session, s.stack = stack → match a.refusal? with
      | some f => Ends act s (.error f) s
      | none => Leads act s (a.put s) ()) : Amounts act [a] stack := by
  intro s hs
  have hact := h s hs
  cases ha : a.refusal? with
  | some f =>
      have houtcome : outcome [a] = .error f := by simp [outcome, firstRefusal, ha]
      have huntil : untilRefused [a] = [] := by simp [untilRefused, ha]
      rw [ha] at hact
      rw [houtcome, huntil]
      exact hact
  | none =>
      have houtcome : outcome [a] = .ok () := by simp [outcome, firstRefusal, ha]
      have huntil : untilRefused [a] = [a] := by simp [untilRefused, ha]
      rw [ha] at hact
      rw [houtcome, huntil]
      exact hact

theorem append {x y : SessionM Unit} {as bs : List Assignment} (hx : Amounts x as stack)
    (hy : Amounts y bs stack) : Amounts (x >>= fun _ => y) (as ++ bs) stack := by
  intro s hs
  have hfirst := hx s hs
  unfold outcome at hfirst ⊢
  rw [Assignment.firstRefusal_append]
  cases has : firstRefusal as with
  | some f =>
      -- the second operation is not run, and its assignments stand behind the refused one
      rw [has] at hfirst
      rw [Assignment.untilRefused_append_of_some has]
      exact Ends.bind_error hfirst
  | none =>
      rw [has, Assignment.untilRefused_of_none has] at hfirst
      rw [Assignment.untilRefused_append_of_none has, Assignment.putAll_append]
      exact Ends.bind_ok hfirst (hy _ ((Assignment.stack_putAll as s).trans hs))

theorem forM {l : List α} {act : α → SessionM Unit} {as : α → List Assignment}
    (h : ∀ a, Amounts (act a) (as a) stack) : Amounts (l.forM act) (l.flatMap as) stack := by
  induction l with
  | nil => exact nil
  | cons a rest ih => exact (h a).append ih

/-- A gate block amounts to what its operation amounts to inside the block. -/
theorem withGate {g : Gate} {act : SessionM Unit} {as : List Assignment}
    (h : Amounts act as (stack ++ [g])) : Amounts (Session.withGate g act) as stack := by
  intro s hs
  have hbody := (h { s with stack := s.stack ++ [g] } (by rw [hs])).withGate
  have hcut : (s.stack ++ [g]).take s.depth = s.stack := List.take_left
  have hstack : (putAll (untilRefused as) s).stack = s.stack := Assignment.stack_putAll _ s
  -- assignments carry the stack along unseen, so cutting it back undoes the entry only
  rw [Assignment.putAll_stack] at hbody
  simp only [hcut] at hbody
  rwa [← hstack] at hbody

end Amounts

/-! ### The parts of a configuration -/

theorem Expr.ofDocument_toAtom (value : Number) :
    Expr.ofDocument (.atom value.toAtom) = match value.degree? with
      | some x => .ok (.value x)
      | none => .error .tooLarge := by
  cases value with
  | int n =>
      show (Expr.degreeOf (.int n) >>= fun x => pure (.value x) : Except Failure Expr) = _
      unfold Expr.degreeOf
      cases (Number.int n).degree? <;> rfl
  | float x => rfl

namespace Session

/-- What is assigned depends on the expression that an argument stands for only. -/
theorem assignValue_congr {d e : Document} (h : Expr.ofDocument d = Expr.ofDocument e)
    (target gate : Document) : assignValue target d gate = assignValue target e gate := by
  unfold assignValue evaluate
  rw [h]

/-- A number that is no degree is refused before anything is bound. -/
theorem ends_assignValue_tooLarge {s : Session} {d : Document} {scope : Scope}
    (hscope : Denotes s d scope) {name : String} (hname : name ≠ "") {value : Number}
    (hvalue : value.degree? = none) :
    Ends (assignValue (.ofText name) (.atom value.toAtom) d) s (.error .tooLarge) s := by
  have hexpr : Expr.ofDocument (.atom value.toAtom) = .error .tooLarge := by
    rw [Expr.ofDocument_toAtom, hvalue]
  have hevaluate : Ends (evaluate (.atom value.toAtom)) s (.error .tooLarge) s := by
    unfold evaluate
    rw [hexpr]
    exact Ends.bind_error (Ends.lift _ s)
  refine Ends.bind_ok (Leads.lift (targetName_ofText hname) s) ?_
  rcases hscope with ⟨rfl, rfl⟩ | ⟨rfl, rfl⟩
  · exact Ends.bind_ok (Leads.lift targetScope_global s) (Ends.bind_error hevaluate)
  · exact Ends.bind_ok (Leads.reading s ambient) (Ends.bind_error hevaluate)

theorem amounts_assignValue {stack : List Gate} {d : Document} {scope : Scope}
    (hscope : ∀ s : Session, s.stack = stack → Denotes s d scope) (name : String)
    (value : Number) :
    Amounts (discard (assignValue (.ofText name) (.atom value.toAtom) d))
      [.degree scope name value] stack := by
  refine Amounts.single fun s hs => ?_
  by_cases hname : name = ""
  · subst hname
    exact Ends.discard (Ends.bind_error (Ends.lift (targetName (.ofText "")) s))
  · cases hvalue : value.degree? with
    | none =>
        simp only [Assignment.refusal?, hname, hvalue]
        exact (ends_assignValue_tooLarge (hscope s hs) hname hvalue).discard
    | some x =>
        have hexpr : Expr.ofDocument (.atom value.toAtom) = Expr.ofDocument (.atom (.float x)) := by
          rw [Expr.ofDocument_toAtom, hvalue]
          rfl
        simp only [Assignment.refusal?, Assignment.put, hname, hvalue, assignValue_congr hexpr]
        exact (leads_assignValue (hscope s hs) hname x).discard

theorem amounts_loadDegrees {stack : List Gate} {d : Document} {scope : Scope}
    (hscope : ∀ s : Session, s.stack = stack → Denotes s d scope)
    (degrees : OrderedMap String Number) :
    Amounts (loadDegrees degrees d) (degreeAssignments scope degrees) stack := by
  unfold degreeAssignments
  rw [List.map_eq_flatMap]
  exact Amounts.forM fun p => amounts_assignValue hscope p.1 p.2

theorem amounts_assignExpression {stack : List Gate} {g : Gate}
    (hstack : stack.getLast? = some g) (e : Expr) :
    Amounts (assignExpression (.ofText g.name) (.ofExpr e)) [.expression g e] stack := by
  refine Amounts.single fun s hs => ?_
  have hambient : s.ambient = .gate g := by
    unfold ambient
    rw [hs, hstack]
  exact leads_assignExpression hambient e

/-- Loading a gate makes the assignments of the gate inside its block. -/
theorem amounts_loadGate (g : Gate) (c : GateConfig) (stack : List Gate) :
    Amounts (loadGate g c) (gateAssignments g c) stack := by
  have hscope : ∀ s : Session, s.stack = stack ++ [g] → Denotes s (.atom .null) (.gate g) := by
    intro s hs
    refine .inr ⟨rfl, ?_⟩
    unfold ambient
    rw [hs, List.getLast?_concat]
  -- inside the block an assignment without a scope goes to the gate of the block
  refine Amounts.withGate ((amounts_loadDegrees hscope c.degrees).append ?_)
  cases c.expression with
  | none => exact Amounts.nil
  | some e => exact amounts_assignExpression List.getLast?_concat e

theorem amounts_loadContents (c : Config) (stack : List Gate) :
    Amounts (Program.loadContents c) c.assignments stack :=
  (amounts_loadDegrees (fun _ _ => .inl ⟨rfl, rfl⟩) c.globals).append
    (Amounts.forM fun p => amounts_loadGate p.1 p.2 stack)

end Session

/-! ### The options for logging -/

namespace LoggingOptions

/-- Why options for logging are refused: a format is asked for that has no field. -/
def refusal? (o : LoggingOptions) : Option Failure :=
  match o.format with
  | some f =>
      if o.enabled ∧ f ≠ "" ∧ Log.hasField f.toList = false then some (.wrongChoice (.format f))
      else none
  | none => none

/-- The format of lines that options ask for. -/
def lineFormat (o : LoggingOptions) : String :=
  match o.format with
  | some f => if f = "" then Log.defaultFormat else f
  | none => Log.defaultFormat

end LoggingOptions

/-- The context with another logger. -/
def Context.withLogger (l : Log.Logger) (ctx : Context) : Context :=
  { ctx with journal := { ctx.journal with logger := l } }

namespace Session

theorem applyLogging_eq (o : LoggingOptions) : applyLogging o =
    if o.enabled then configureLogging o.level.text o.lineFormat else pure () := rfl

theorem formatOf_lineFormat {o : LoggingOptions} (h : o.enabled = true) :
    Log.formatOf (.ofText o.lineFormat) = match o.refusal? with
      | some f => .error f
      | none => .ok o.lineFormat := by
  have hdefault : Log.formatOf (.ofText Log.defaultFormat) = .ok Log.defaultFormat := by
    rw [Log.formatOf_text (by decide), if_pos (by decide)]
  obtain ⟨level, format, enabled⟩ := o
  unfold LoggingOptions.lineFormat LoggingOptions.refusal?
  cases format with
  | none => exact hdefault
  | some f =>
      by_cases hf : f = ""
      · simp [hf, hdefault]
      · cases hfield : Log.hasField f.toList <;> simp_all [Log.formatOf_text hf]

/-- Applying the options for logging gives the logger their level, and their format unless this
is what is refused. -/
theorem run_applyLogging (o : LoggingOptions) (ctx : Context) :
    (applyLogging o).run ctx = match o.refusal? with
      | some f =>
          (.error f, ctx.withLogger (ctx.journal.logger.levelled (.number o.level.severity)))
      | none => (.ok (), if o.enabled then ctx.withLogger
          (ctx.journal.logger.configured (.number o.level.severity) o.lineFormat) else ctx) := by
  rw [applyLogging_eq]
  cases henabled : o.enabled with
  | false =>
      have hnone : o.refusal? = none := by
        unfold LoggingOptions.refusal?
        cases o.format <;> simp [henabled]
      rw [hnone]
      rfl
  | true =>
      show ((Log.configure (.ofText o.level.text) (.ofText o.lineFormat) ctx.journal.logger).1,
        ctx.withLogger (Log.configure (.ofText o.level.text) (.ofText o.lineFormat)
          ctx.journal.logger).2) = _
      rw [Log.configure_eq, Log.levelOf_text, formatOf_lineFormat henabled]
      cases o.refusal? <;> rfl

/-- The options for logging are applied or refused, and no session is touched. -/
theorem ends_applyLogging (o : LoggingOptions) (s : Session) :
    Ends (applyLogging o) s (match o.refusal? with
      | some f => .error f
      | none => .ok ()) s := by
  intro journal
  rw [run_applyLogging]
  cases o.refusal? with
  | some f => exact ⟨_, rfl⟩
  | none => cases o.enabled <;> exact ⟨_, rfl⟩

end Session

/-! ### The whole load -/

namespace Session

/-- How a load ends: without a trace if the options for logging are refused, and else as its
assignments do. -/
theorem ends_load (c : Config) (s : Session) :
    match c.logging.refusal? with
    | some f => Ends (load c) s (.error f) s
    | none => Ends (load c) s (outcome c.assignments) (putAll (untilRefused c.assignments) s) := by
  have hlogging := ends_applyLogging c.logging s
  have hcontents := amounts_loadContents c s.stack s rfl
  rw [Program.load_eq_bind]
  cases hrefusal : c.logging.refusal? with
  | some f =>
      rw [hrefusal] at hlogging
      exact Ends.bind_error hlogging
  | none =>
      rw [hrefusal] at hlogging
      refine Ends.bind_ok (a := ()) hlogging ?_
      unfold outcome at *
      cases hfirst : firstRefusal c.assignments with
      | some f =>
          rw [hfirst] at hcontents
          exact Ends.bind_error hcontents
      | none =>
          rw [hfirst] at hcontents
          exact Ends.bind_ok (a := ()) hcontents (Leads.note _ _)

/-- **A load assigns everything, or exactly what precedes a refusal**, and it leaves the gate
blocks as they were.  What it assigned before a refusal stays assigned. -/
theorem load_assigns_until_refused (c : Config) (s : Session) (journal : Log.Journal) :
    ∃ result after journal', (load c).run ⟨s, journal⟩ = (result, ⟨after, journal'⟩) ∧
      after.stack = s.stack ∧
      ((result = .ok () ∧ after = putAll c.assignments s ∧
          ∀ a ∈ c.assignments, Assignment.Holds after a) ∨
        (∃ f, result = .error f ∧ c.logging.refusal? = some f ∧ after = s) ∨
        ∃ f before a rest, result = .error f ∧ c.assignments = before ++ a :: rest ∧
          a.refusal? = some f ∧ after = putAll before s ∧
          ∀ b ∈ before, Assignment.Holds after b) := by
  have hload := ends_load c s
  have hplaces := c.nodup_places
  cases hlogging : c.logging.refusal? with
  | some f =>
      rw [hlogging] at hload
      obtain ⟨journal', hrun⟩ := hload journal
      exact ⟨_, _, _, hrun, rfl, .inr (.inl ⟨f, rfl, rfl, rfl⟩)⟩
  | none =>
      rw [hlogging] at hload
      obtain ⟨journal', hrun⟩ := hload journal
      refine ⟨_, _, _, hrun, Assignment.stack_putAll _ s, ?_⟩
      cases hfirst : firstRefusal c.assignments with
      | none =>
          have houtcome : outcome c.assignments = .ok () := by rw [outcome, hfirst]
          rw [houtcome, Assignment.untilRefused_of_none hfirst]
          refine .inl ⟨rfl, rfl, ?_⟩
          exact Assignment.holds_putAll (Assignment.firstRefusal_eq_none_iff.mp hfirst) hplaces s
      | some f =>
          have houtcome : outcome c.assignments = .error f := by rw [outcome, hfirst]
          obtain ⟨a, rest, hsplit, ha⟩ := Assignment.exists_of_firstRefusal hfirst
          refine .inr (.inr ⟨f, _, a, rest, houtcome, hsplit, ha, rfl, ?_⟩)
          rw [hsplit, List.map_append, List.nodup_append] at hplaces
          exact Assignment.holds_putAll (fun b => Assignment.refusal?_of_mem_untilRefused)
            hplaces.1 s

/-- A load of a configuration into a session assigns everything or leaves the session as it
was. -/
def LoadsWhole (c : Config) (s : Session) : Prop :=
  ∀ journal, let run := (load c).run ⟨s, journal⟩
    (run.1 = .ok () ∧ ∀ a ∈ c.assignments, Assignment.Holds run.2.session a) ∨
      (∃ f, run.1 = .error f) ∧ run.2.session = s

/-- Not every configuration is loaded as a whole: a variable without a name is refused after the
variable before it has been bound. -/
theorem not_loadsWhole_unnamed : ∃ c, Config.ofDocument (.mapping [(.text "globals",
    .mapping [(.text "X", .atom (.float 0.5)), (.text "", .atom (.float 0.25))])]) = .ok c ∧
      ¬ LoadsWhole c fresh := by
  let c : Config := ⟨{}, .ofList [("X", .float 0.5), ("", .float 0.25)], ∅⟩
  have hc : Config.ofDocument (.mapping [(.text "globals",
    .mapping [(.text "X", .atom (.float 0.5)), (.text "", .atom (.float 0.25))])]) = .ok c := rfl
  refine ⟨c, hc, fun hwhole => ?_⟩
  have hassignments : c.assignments =
      [.degree .global "X" (.float 0.5), .degree .global "" (.float 0.25)] := rfl
  have hload : Ends (load c) fresh (.error (.badTarget (.ofText "")))
      (putAll [.degree .global "X" (.float 0.5)] fresh) := by
    have hends := ends_load c fresh
    rw [hassignments] at hends
    exact hends
  obtain ⟨journal', hrun⟩ := hload (.start .unconfigured)
  rcases hwhole (.start .unconfigured) with ⟨hok, -⟩ | ⟨-, hsame⟩
  · rw [hrun] at hok
    cases hok
  · rw [hrun] at hsame
    have hglobals : ["X"] = [] := congrArg (fun s : Session => s.env.globals.keys) hsame
    cases hglobals

end Session

end FuzzyGates
