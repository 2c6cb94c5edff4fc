import FuzzyGates.Proofs.Session.Changes

/-!
# Operations do not look at records

What an operation does and answers depends on the session and on the logger, never on
what has been logged before.  Earlier records stay in front of the new ones.

* `Context.prepend` — the context with records put in front of those it has.
* `MadeFrom.blind` — running an operation commutes with putting records in front.
* **`Blind.agree`** — from contexts that agree on the session and on the logger an
  operation has the same result and leads to contexts that agree.
-/

namespace FuzzyGates

/-- Records put in front of those of a journal. -/
def Log.Journal.prepend (earlier : List Log.Event) (j : Log.Journal) : Log.Journal :=
  { j with records := earlier ++ j.records }

namespace Context

/-- The context with records put in front of those of its journal. -/
def prepend (earlier : List Log.Event) (ctx : Context) : Context :=
  { ctx with journal := ctx.journal.prepend earlier }

@[simp] theorem session_prepend (earlier : List Log.Event) (ctx : Context) :
    (ctx.prepend earlier).session = ctx.session := rfl

@[simp] theorem note_prepend (earlier : List Log.Event) (ctx : Context) (e : Log.Event) :
    (ctx.prepend earlier).note e = (ctx.note e).prepend earlier := by
  by_cases h : ctx.journal.logger.passes e.level.severity <;>
    simp [note, prepend, Log.Journal.prepend, Log.Journal.note, h]

@[simp] theorem enterGate_prepend (earlier : List Log.Event) (g : Gate) (ctx : Context) :
    (ctx.prepend earlier).enterGate g = (ctx.enterGate g).prepend earlier := by
  simp only [enterGate, note_prepend, session_prepend]
  rfl

@[simp] theorem leaveGate_prepend (earlier : List Log.Event) (depth : Nat) (g : Gate)
    (ctx : Context) :
    (ctx.prepend earlier).leaveGate depth g = (ctx.leaveGate depth g).prepend earlier := by
  let cut : Session := { ctx.session with stack := ctx.session.stack.take depth }
  exact note_prepend earlier ⟨cut, ctx.journal⟩ (.leftGate g cut.ambient)

/-- Two contexts differ at most in what has been logged. -/
structure Agree (c d : Context) : Prop where
  session : c.session = d.session
  logger : c.journal.logger = d.journal.logger

theorem Agree.symm {c d : Context} (h : Agree c d) : Agree d c := ⟨h.session.symm, h.logger.symm⟩

theorem Agree.trans {c d e : Context} (h : Agree c d) (k : Agree d e) : Agree c e :=
  ⟨h.session.trans k.session, h.logger.trans k.logger⟩

theorem agree_prepend (earlier : List Log.Event) (c : Context) : Agree (c.prepend earlier) c :=
  ⟨rfl, rfl⟩

theorem agree_note (c : Context) (e : Log.Event) : Agree (c.note e) c := by
  refine ⟨rfl, ?_⟩
  simp only [note, Log.Journal.note]
  split <;> rfl

theorem Agree.note {c d : Context} (h : Agree c d) (e : Log.Event) : Agree (c.note e) (d.note e) :=
  (agree_note c e).trans (h.trans (agree_note d e).symm)

theorem Agree.restore {c d : Context} (h : Agree c d) (saved : Environment) :
    Agree (c.restore saved) (d.restore saved) := by
  have hset : Agree ⟨{ c.session with env := saved }, c.journal⟩
      ⟨{ d.session with env := saved }, d.journal⟩ := by
    refine ⟨?_, h.logger⟩
    show ({ c.session with env := saved } : Session) = { d.session with env := saved }
    rw [h.session]
  exact hset.note _

theorem Agree.enter {c d : Context} (h : Agree c d) (entry : Program.Entry) :
    Agree (entry.enter c) (entry.enter d) := by
  cases entry with
  | anonymous =>
      show Agree (c.note _) (d.note _)
      rw [h.session]
      exact h.note _
  | gate g =>
      have hnote := h.note (.enteredGate g d.session.ambient)
      refine ⟨?_, ?_⟩
      · show ({ c.session with stack := c.session.stack ++ [g] } : Session) =
          { d.session with stack := d.session.stack ++ [g] }
        rw [h.session]
      · show (c.note (.enteredGate g c.session.ambient)).journal.logger = _
        rw [h.session]
        exact hnote.logger

theorem Agree.leave {c d : Context} (h : Agree c d) (before : Session) (entry : Program.Entry) :
    Agree (entry.leave before c) (entry.leave before d) := by
  cases entry with
  | anonymous => exact (h.restore before.env).note .leftAnonymous
  | gate g =>
      let cut (s : Session) : Session := { s with stack := s.stack.take before.depth }
      have hcut : Agree ⟨cut d.session, c.journal⟩ ⟨cut d.session, d.journal⟩ := ⟨rfl, h.logger⟩
      show Agree (Context.note ⟨cut c.session, c.journal⟩ (.leftGate g (cut c.session).ambient))
        (Context.note ⟨cut d.session, d.journal⟩ (.leftGate g (cut d.session).ambient))
      rw [h.session]
      exact hcut.note _

end Context

namespace SessionM

variable {α : Type}

/-- Records that are there already do not matter, and stay in front. -/
def Blind (act : SessionM α) : Prop :=
  ∀ earlier ctx,
    act.run (ctx.prepend earlier) = ((act.run ctx).1, (act.run ctx).2.prepend earlier)

/-- Nothing that an operation can be made from looks at the records. -/
theorem MadeFrom.blind {C : Session.Change → Prop} {act : SessionM α} (h : MadeFrom C act) :
    Blind act := by
  intro earlier ctx
  induction h generalizing ctx with
  | change c hc => rfl
  | pure a => rfl
  | throw e => rfl
  | reading f => rfl
  | note e => simp
  | configure level format => rfl
  | @bind C α β x f hx hf ihx ihf =>
      rw [run_bind, run_bind, ihx]
      rcases x.run ctx with ⟨e | a, after⟩
      · rfl
      · exact ihf a after
  | @tryCatch C α x h hx hh ihx ihh =>
      rw [run_tryCatch, run_tryCatch, ihx]
      rcases x.run ctx with ⟨e | a, after⟩
      · exact ihh e after
      · rfl
  | withGate g h ih =>
      rw [run_withGate, run_withGate, Context.enterGate_prepend, ih, Context.leaveGate_prepend]
      rfl
  | elsewhere s h ih =>
      have hstart : (⟨s, (ctx.prepend earlier).journal⟩ : Context) =
          Context.prepend earlier ⟨s, ctx.journal⟩ := rfl
      rw [run_elsewhere, run_elsewhere, hstart, ih]
      rfl

/-- **Contexts that differ only in what has been logged are treated alike.** -/
theorem Blind.agree {act : SessionM α} (h : Blind act) {c d : Context} (hcd : c.Agree d) :
    (act.run c).1 = (act.run d).1 ∧ (act.run c).2.Agree (act.run d).2 := by
  -- both are the context without records, with their own records put in front
  let bare : Context := ⟨c.session, ⟨c.journal.logger, []⟩⟩
  have hc : c = bare.prepend c.journal.records := by
    simp [bare, Context.prepend, Log.Journal.prepend]
  have hd : d = bare.prepend d.journal.records := by
    simp [bare, Context.prepend, Log.Journal.prepend, hcd.session, hcd.logger]
  rw [hc, hd, h, h]
  exact ⟨rfl, (Context.agree_prepend _ _).trans (Context.agree_prepend _ _).symm⟩

end SessionM

end FuzzyGates
