import FuzzyGates.Proofs.Session.Logging

/-!
# The logger after many requests

Applications configure the logger directly, and by loading configurations that ask for it, as
often as they like.  Both ways come to the same.  The first request that is granted adds an own
handler, later ones change it; handlers of other origin are never touched.

* `Log.Request` — a request to configure the logger, with the level and the format it asks for.
* `Request.run_eq` — both kinds of requests configure the logger in one way.
* `foreign_run`, `length_own_run`, `run_granted` — what one request does.
* `Request.runAll` — the logger after requests, granted or refused.
* **`last_request_decides`** — after requests of which the last one is granted there is one own
  handler, and it is as the last one asked.
-/

namespace FuzzyGates.Log

/-- A request to configure the logger: a direct one, or a load of a configuration that asks for
it.  A direct request may leave out the level and the format. -/
inductive Request
  | direct (level : Option Document) (format : Option String)
  | load (session : Session) (records : List Event) (config : Config)
      (enabled : config.logging.enabled = true)

namespace Request

/-- The level that a request asks for, by default that of infos. -/
def level : Request → Document
  | direct level _ => level.getD (.ofText "INFO")
  | load _ _ c _ => .ofText c.logging.level.text

/-- The format that a request asks for. -/
def lineFormat : Request → String
  | direct _ none => defaultFormat
  | direct _ (some f) => if f = "" then messageFormat else f
  | load _ _ c _ => c.logging.lineFormat

/-- How a request ends and the logger after it.  A load goes on after configuring the logger, and
may still fail. -/
def run : Request → Logger → Except Failure Unit × Logger
  | direct level format, l =>
      configure (level.getD (.ofText "INFO")) (.ofText (format.getD defaultFormat)) l
  | load s records c _, l =>
      (((Session.applyLogging c.logging).run ⟨s, ⟨l, records⟩⟩).1,
        ((Session.load c).run ⟨s, ⟨l, records⟩⟩).2.journal.logger)

/-- The logger after requests. -/
def runAll (rs : List Request) (l : Logger) : Logger := rs.foldl (fun l r => (r.run l).2) l

variable {r : Request} {l : Logger}

theorem lineFormat_ne_empty (r : Request) : r.lineFormat ≠ "" := by
  have hdefault : defaultFormat ≠ "" := by decide
  have hmessage : messageFormat ≠ "" := by decide
  unfold lineFormat
  split
  · exact hdefault
  · split
    · exact hmessage
    · assumption
  · unfold LoggingOptions.lineFormat
    split
    · split
      · exact hdefault
      · assumption
    · exact hdefault

/-! ### One request -/

/-- Requests of both kinds configure the logger; what a load does afterwards leaves it alone. -/
theorem run_eq (r : Request) (l : Logger) :
    r.run l = configure r.level (.ofText r.lineFormat) l := by
  cases r with
  | direct level format =>
      cases format with
      | none => rfl
      | some f =>
          by_cases hf : f = ""
          · subst hf
            simp only [run, Request.level, lineFormat, configure_eq]
            rfl
          · simp [run, Request.level, lineFormat, hf]
  | load s records c enabled =>
      show (_, ((Session.load c).run ⟨s, ⟨l, records⟩⟩).2.journal.logger) = _
      rw [Session.logger_load, Session.applyLogging_eq, if_pos enabled]
      rfl

theorem foreign_run (r : Request) (l : Logger) : (r.run l).2.foreign = l.foreign := by
  rw [run_eq, configure_eq]
  cases levelOf r.level with
  | error e => rfl
  | ok v =>
      cases formatOf (.ofText r.lineFormat) with
      | error e => exact Logger.foreign_levelled
      | ok f => exact Logger.foreign_configured

/-- Not even a refused request adds an own handler to one that is there. -/
theorem length_own_run (r : Request) (h : l.own.length ≤ 1) : (r.run l).2.own.length ≤ 1 := by
  rw [run_eq, configure_eq]
  cases levelOf r.level with
  | error e => exact h
  | ok v =>
      cases formatOf (.ofText r.lineFormat) with
      | error e => exact Nat.le_of_eq (Logger.length_own_levelled h)
      | ok f => exact Nat.le_of_eq (congrArg List.length (Logger.own_configured h))

/-- A request that is granted is followed to the letter. -/
theorem run_granted (hgranted : (r.run l).1 = .ok ()) : ∃ v, GivesLevel r.level v ∧
    (r.run l).2 = l.configured v r.lineFormat := by
  have hrun : configure r.level (.ofText r.lineFormat) l = (.ok (), (r.run l).2) := by
    rw [← run_eq, ← hgranted]
  obtain ⟨v, f, hlevel, hformat, hlogger⟩ := configure_eq_ok_iff.mp hrun
  cases hformat with
  | text hfield => exact ⟨v, hlevel, hlogger⟩
  | void hvoid =>
      have hempty : r.lineFormat = "" := by simpa [Document.ofText, Document.isVoid] using hvoid
      exact absurd hempty (lineFormat_ne_empty r)

/-! ### Many requests -/

theorem runAll_append (rs : List Request) (r : Request) (l : Logger) :
    runAll (rs ++ [r]) l = (r.run (runAll rs l)).2 := by simp [runAll]

theorem foreign_runAll (rs : List Request) (l : Logger) : (runAll rs l).foreign = l.foreign := by
  induction rs generalizing l with
  | nil => rfl
  | cons r rest ih => exact (ih (r.run l).2).trans (foreign_run r l)

theorem length_own_runAll (rs : List Request) (h : l.own.length ≤ 1) :
    (runAll rs l).own.length ≤ 1 := by
  induction rs generalizing l with
  | nil => exact h
  | cons r rest ih => exact ih (length_own_run r h)

/-- **The last request decides.**  If it is granted, there is exactly one own handler afterwards;
logger and handler have the level that the last request gives, and the handler its format.  The
handlers of other origin are there as before, in their order.  Requests before the last one may
have been refused. -/
theorem last_request_decides (rs : List Request) (last : Request) (l : Logger)
    (hown : l.own.length ≤ 1) (hgranted : (last.run (runAll rs l)).1 = .ok ()) :
    ∃ v, GivesLevel last.level v ∧
      (runAll (rs ++ [last]) l).level = v ∧
      (runAll (rs ++ [last]) l).own = [⟨true, v, some last.lineFormat⟩] ∧
      (runAll (rs ++ [last]) l).foreign = l.foreign := by
  obtain ⟨v, hlevel, hlogger⟩ := run_granted hgranted
  have hone := length_own_runAll rs hown
  refine ⟨v, hlevel, ?_, ?_, foreign_runAll _ l⟩
  · rw [runAll_append, hlogger]
    rfl
  · rw [runAll_append, hlogger]
    exact Logger.own_configured hone

/-- An own handler among others stays where it is, after a refused request and a load too. -/
theorem last_request_decides_after_refusal :
    let before : Handler := ⟨false, .number 10, none⟩
    let after : Handler := ⟨false, .flag true, some messageFormat⟩
    let l : Logger := ⟨.number 30, [before, ⟨true, .number 20, none⟩, after]⟩
    let refused := direct (some (.atom (.int 35))) (some "plain")
    let loaded := load Session.fresh [] ⟨⟨.error, some "%(name)s", true⟩, ∅, ∅⟩ rfl
    let last := direct (some (.ofText "Debug")) none
    (l.own.length ≤ 1 ∧ (last.run (runAll [refused, loaded] l)).1 = .ok ()) ∧
      runAll [refused, loaded, last] l =
        ⟨.number 10, [before, ⟨true, .number 10, some defaultFormat⟩, after]⟩ ∧
      ∃ v, GivesLevel last.level v ∧
        (runAll [refused, loaded, last] l).level = v ∧
        (runAll [refused, loaded, last] l).own = [⟨true, v, some defaultFormat⟩] ∧
        (runAll [refused, loaded, last] l).foreign = [before, after] := by
  intro before after l refused loaded last
  have hown : l.own.length ≤ 1 := by decide
  have hgranted : (last.run (runAll [refused, loaded] l)).1 = .ok () := rfl
  exact ⟨⟨hown, hgranted⟩, rfl, last_request_decides [refused, loaded] last l hown hgranted⟩

end Request

end FuzzyGates.Log
