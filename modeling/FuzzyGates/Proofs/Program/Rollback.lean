import FuzzyGates.Proofs.Program.Worlds

/-!
# Anonymous scopes roll the bindings back

A body that is run inside an anonymous scope does what it does without one, except that
in the end the bindings of its session are those found on entry.  The three parts of a
session follow three rules: the bindings are rolled back, the registry is kept, and the
stack is what the blocks in the body left of it.  The body is any list of steps: steps that
fail, resets, snapshots taken elsewhere, further blocks at any depth, steps on other
sessions.

Since entering the scope only writes to the journal, the two runs start in worlds that are
alike, and `runAll_alike` does the induction over the body.
-/

namespace FuzzyGates.Program

open World

/-- Entering an anonymous scope changes nothing that a run can tell. -/
theorem alike_update_enterAnonymous (w : World) (name : String) :
    Alike (w.update name (Entry.enter .anonymous)) w :=
  ((Alike.refl w).withContext name (Context.agree_note (w.context name) _)).trans
    (alike_withContext_context w name)

theorem session_leaveAnonymous (saved : Environment) (ctx : Context) :
    (ctx.leaveAnonymous saved).session = { ctx.session with env := saved } := rfl

theorem logger_leaveAnonymous (saved : Environment) (ctx : Context) :
    (ctx.leaveAnonymous saved).journal.logger = ctx.journal.logger :=
  ((Context.agree_note _ _).trans (Context.agree_note _ _)).logger

/-- **Rollback.**  Compared with the bare body, the body in an anonymous scope has the same rows
up to records and the same failure, which is also that of the block.  Afterwards the session has
the registry and the stack that the bare body leaves, and the bindings that were there before;
other sessions, the snapshots and the logger are as the bare body leaves them. -/
theorem anonymous_rolls_back (name : String) (raises : Bool) (body : List Step) (w : World) :
    let bare := runAll body w
    let inside := (Step.block name raises .anonymous body).run w
    (∃ rows records,
        inside.1 = .block .anonymous rows (blockOutcome bare.2.1 bare.1.length) records
          (inside.2.2.session name) ∧
        unloggedAll rows = unloggedAll bare.1) ∧
      inside.2.1 = leaving raises (blockOutcome bare.2.1 bare.1.length) ∧
      inside.2.2.session name =
        { bare.2.2.session name with env := (w.session name).env } ∧
      (∀ other, other ≠ name → inside.2.2.session other = bare.2.2.session other) ∧
      inside.2.2.snapshots = bare.2.2.snapshots ∧
      inside.2.2.journal.logger = bare.2.2.journal.logger := by
  intro bare inside
  obtain ⟨hrows, hfailure, halike⟩ := runAll_alike body (alike_update_enterAnonymous w name)
  have hlength := length_eq_of_unloggedAll_eq hrows
  have hentry : Block.anonymous.entry = .ok .anonymous := rfl
  have hrun := Step.run_entered name raises body w hentry
  rw [hfailure, hlength] at hrun
  have hend : inside.2.2 = (afterBlock name .anonymous body w).flush := by
    show ((Step.block name raises .anonymous body).run w).2.2 = _
    rw [hrun]
  refine ⟨⟨_, (afterBlock name .anonymous body w).journal.records, ?_, hrows⟩, ?_, ?_, ?_, ?_, ?_⟩
  · show ((Step.block name raises .anonymous body).run w).1 = _
    rw [hend, hrun]
    rfl
  · show ((Step.block name raises .anonymous body).run w).2.1 = _
    rw [hrun]
  · rw [hend, session_flush, afterBlock, session_update, if_pos rfl]
    show Context.session (Context.leaveAnonymous _ _) = _
    rw [session_leaveAnonymous]
    show ({ World.session _ name with env := _ } : Session) = _
    rw [halike.session name]
  · intro other hother
    rw [hend, session_flush, afterBlock, session_update, if_neg (Ne.symm hother),
      halike.session other]
  · rw [hend]
    exact halike.snapshots
  · rw [hend]
    exact (logger_leaveAnonymous _ _).trans halike.logger

end FuzzyGates.Program
