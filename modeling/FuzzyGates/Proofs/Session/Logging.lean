import FuzzyGates.Proofs.Session.Loading
import FuzzyGates.Proofs.Session.ScopeRecords

/-!
# What becomes of the logger

Only the options for logging change the logger; whatever else a load does leaves it alone.  A
configuration of the logger that is refused for its format has given the level by then, and
nothing takes that back.

* `Session.KeepsLogger` — an operation leaves the logger as it is, as quiet operations do; kept by
  sequencing, by iteration and by gate blocks.
* `keepsLogger_loadContents`, `logger_load` — the logger after a load.
* `applyLogging_eq_error_iff`, `applyLogging_traceless_iff` — which options for logging are
  refused, and when the refusal leaves no trace.
* **`refused_logging_leaves_level`** — what a refused configuration of the logger leaves behind,
  asked for directly or by a load.
-/

namespace FuzzyGates

open SessionM

variable {α β : Type}

namespace Session

/-- An operation leaves the logger as it is. -/
def KeepsLogger (act : SessionM α) : Prop :=
  ∀ ctx : Context, (act.run ctx).2.journal.logger = ctx.journal.logger

theorem Quiet.keepsLogger {act : SessionM α} (h : Quiet act) : KeepsLogger act :=
  fun ctx => (h ctx).logger

namespace KeepsLogger

theorem bind {x : SessionM α} {f : α → SessionM β} (hx : KeepsLogger x)
    (hf : ∀ a, KeepsLogger (f a)) : KeepsLogger (x >>= f) :=
  Relates.bind (R := fun c d => d.journal.logger = c.journal.logger)
    (fun _ _ _ h h' => h'.trans h) hx hf

theorem forM {l : List α} {f : α → SessionM Unit} (h : ∀ a, KeepsLogger (f a)) :
    KeepsLogger (l.forM f) :=
  Relates.forM (R := fun c d => d.journal.logger = c.journal.logger) (fun _ => rfl)
    (fun _ _ _ h h' => h'.trans h) h

/-- The records of entering and of leaving a gate block change no logger. -/
theorem withGate {g : Gate} {act : SessionM α} (h : KeepsLogger act) :
    KeepsLogger (withGate g act) := by
  intro ctx
  have henter : (ctx.enterGate g).journal.logger = ctx.journal.logger :=
    (ctx.agree_note (.enteredGate g ctx.session.ambient)).logger
  have hleave (inside : Context) :
      (inside.leaveGate ctx.session.depth g).journal.logger = inside.journal.logger :=
    (Context.agree_note _ _).logger
  rw [run_withGate]
  exact (hleave _).trans ((h (ctx.enterGate g)).trans henter)

end KeepsLogger

/-! ### The operations of a load -/

theorem keepsLogger_loadDegrees (degrees : OrderedMap String Number) (scope : Document) :
    KeepsLogger (loadDegrees degrees scope) :=
  (Quiet.forM fun _ => (quiet_assignValue _ _ _).discard).keepsLogger

theorem keepsLogger_loadGate (g : Gate) (c : GateConfig) : KeepsLogger (loadGate g c) := by
  refine .withGate ((keepsLogger_loadDegrees c.degrees _).bind fun _ => ?_)
  cases c.expression with
  | some e => exact (quiet_assignExpression _ _).keepsLogger
  | none => exact (Quiet.pure ()).keepsLogger

theorem keepsLogger_loadContents (c : Config) : KeepsLogger (Program.loadContents c) :=
  (keepsLogger_loadDegrees c.globals _).bind fun _ => .forM fun p => keepsLogger_loadGate p.1 p.2

/-- The logger after a load, however it ends, is that after its options for logging. -/
theorem logger_load (c : Config) (ctx : Context) : ((load c).run ctx).2.journal.logger =
    ((applyLogging c.logging).run ctx).2.journal.logger := by
  have hrest : KeepsLogger (do
      Program.loadContents c
      SessionM.note (.loaded c.globals.size c.gates.size)) :=
    (keepsLogger_loadContents c).bind fun _ => (Quiet.note rfl).keepsLogger
  rw [Program.load_eq_bind, run_bind]
  rcases (applyLogging c.logging).run ctx with ⟨e | _, after⟩
  · rfl
  · exact hrest after

/-! ### Options for logging that are refused -/

theorem applyLogging_eq_error_iff {o : LoggingOptions} {ctx after : Context} {e : Failure} :
    (applyLogging o).run ctx = (.error e, after) ↔ o.refusal? = some e ∧
      after = ctx.withLogger (ctx.journal.logger.levelled (.number o.level.severity)) := by
  rw [run_applyLogging]
  cases o.refusal? with
  | none => exact ⟨nofun, nofun⟩
  | some f =>
      constructor
      · intro hrun
        cases hrun
        exact ⟨rfl, rfl⟩
      · rintro ⟨hrefused, rfl⟩
        cases hrefused
        rfl

/-- A load fails at its options for logging as these do. -/
theorem run_load_of_applyLogging {c : Config} {ctx after : Context} {e : Failure}
    (h : (applyLogging c.logging).run ctx = (.error e, after)) :
    (load c).run ctx = (.error e, after) := by
  rw [Program.load_eq_bind, run_bind, h]

/-- Refused options for logging leave no trace if the logger is at their level already. -/
theorem applyLogging_traceless_iff {o : LoggingOptions} {ctx : Context} :
    (∀ e after, (applyLogging o).run ctx = (.error e, after) →
      after.journal.logger = ctx.journal.logger) ↔
    o.refusal? = none ∨ ctx.journal.logger.At (.number o.level.severity) := by
  constructor
  · intro h
    cases hrefused : o.refusal? with
    | none => exact .inl rfl
    | some e =>
        have hleft := h e _ (applyLogging_eq_error_iff.mpr ⟨hrefused, rfl⟩)
        exact .inr (Log.Logger.levelled_eq_self_iff.mp hleft)
  · intro h e after hrun
    obtain ⟨hrefused, rfl⟩ := applyLogging_eq_error_iff.mp hrun
    rcases h with hnone | hat
    · rw [hnone] at hrefused
      cases hrefused
    · exact Log.Logger.levelled_eq_self_iff.mpr hat

/-- **A refused configuration of the logger leaves its level.**  Refused for its level it changes
nothing; refused for its format it has put the logger and an own handler at the level, whether it
was asked for directly or by the options for logging of a load, which ends there.  So nothing has
changed only if the level was what is refused, or if the logger was at it already. -/
theorem refused_logging_leaves_level (level format : Document) (l : Log.Logger) (c : Config)
    (ctx : Context) :
    (∀ e after, Log.configure level format l = (.error e, after) ↔
      (Log.levelOf level = .error e ∧ after = l) ∨
        ∃ v, Log.GivesLevel level v ∧ Log.formatOf format = .error e ∧ after = l.levelled v) ∧
    ((∀ e after, Log.configure level format l = (.error e, after) → after = l) ↔
      (∀ v, ¬ Log.GivesLevel level v) ∨ (∃ v, Log.GivesLevel level v ∧ l.At v) ∨
        ∃ f, Log.GivesFormat format f) ∧
    (∀ e after, (applyLogging c.logging).run ctx = (.error e, after) ↔
      (load c).run ctx = (.error e, after) ∧ c.logging.refusal? = some e ∧
        after = ctx.withLogger
          (ctx.journal.logger.levelled (.number c.logging.level.severity))) ∧
    ((∀ e after, (applyLogging c.logging).run ctx = (.error e, after) →
        after.journal.logger = ctx.journal.logger) ↔
      c.logging.refusal? = none ∨
        ctx.journal.logger.At (.number c.logging.level.severity)) := by
  refine ⟨fun _ _ => Log.configure_eq_error_iff, Log.configure_traceless_iff, fun e after => ?_,
    applyLogging_traceless_iff⟩
  constructor
  · intro h
    exact ⟨run_load_of_applyLogging h, applyLogging_eq_error_iff.mp h⟩
  · rintro ⟨-, h⟩
    exact applyLogging_eq_error_iff.mpr h

/-- Options for logging with a format that has no field. -/
def fieldlessOptions : LoggingOptions := ⟨.debug, some "plain", true⟩

/-- A configuration with nothing but these options. -/
def fieldlessData : Document :=
  .mapping [(.text "logging", .mapping [(.text "enabled", .atom (.bool true)),
    (.text "level", .ofText "DEBUG"), (.text "format", .ofText "plain")])]

/-- Not every refused configuration of the logger changes nothing: one for a format without
fields puts a logger that nothing has configured at the level and gives it a handler without a
format, also when it comes from data that are accepted. -/
theorem refused_logging_not_without_trace :
    let e := Failure.wrongChoice (.format "plain")
    let after : Log.Logger := ⟨.number 10, [⟨true, .number 10, none⟩]⟩
    ¬ (∀ level format (l after : Log.Logger) e,
        Log.configure level format l = (.error e, after) → after = l) ∧
      ¬ (∀ (d : Document) (c : Config) (ctx after : Context) e, Config.ofDocument d = .ok c →
        c.logging.enabled = true → (applyLogging c.logging).run ctx = (.error e, after) →
          after.journal.logger = ctx.journal.logger) ∧
      Log.configure (.ofText "DEBUG") (.ofText "plain") .unconfigured = (.error e, after) ∧
      Config.ofDocument fieldlessData = .ok ⟨fieldlessOptions, ∅, ∅⟩ := by
  intro e after
  have hdirect : Log.configure (.ofText "DEBUG") (.ofText "plain") .unconfigured =
      (.error e, after) := rfl
  have haccepted : Config.ofDocument fieldlessData = .ok ⟨fieldlessOptions, ∅, ∅⟩ := rfl
  refine ⟨fun h => ?_, fun h => ?_, hdirect, haccepted⟩
  · have heq := h _ _ _ _ _ hdirect
    exact absurd heq (by decide)
  · have hload : (applyLogging fieldlessOptions).run ⟨fresh, .start .unconfigured⟩ =
        (.error e, ⟨fresh, ⟨after, []⟩⟩) := rfl
    have heq := h _ _ _ _ _ haccepted rfl hload
    exact absurd heq (by decide)

end Session

end FuzzyGates
