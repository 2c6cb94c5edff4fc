import FuzzyGates.Proofs.Document.Naming
import FuzzyGates.Proofs.Program.Moments

/-!
# The stack is the lexical nesting

At every moment of every run the stack of a session lists, outermost first, the gates of
the blocks that are open on it and were entered after its last reset.  Leaving a block
cuts the stack back to the depth found on entry.  That is right also after a reset inside
the block, because then nothing below that depth counts any more.

* `Nesting.gates` — the gates that the open blocks put on the stack of a session.
* `Nesting.Stacked`, `Nesting.Shown` — the stack of a session, or every stack of a world, is that
  of the open blocks.
* `stacked_invariant` — every mark keeps it so.
* `stack_eq_of_not_reset` — steps leave a stack as it was if they do not reset its session.
* **`stack_eq_open_gates`** — the resulting account of stacks and blocks.
-/

namespace FuzzyGates

namespace Program

open World

/-- The gate that an open block puts on the stack of a session, unless it was reset since. -/
def OpenBlock.gate? (name : String) (b : OpenBlock) : Option Gate :=
  match b.entry with
  | .gate g => if b.session = name ∧ b.current = true then some g else none
  | .anonymous => none

theorem OpenBlock.gate?_fade (name : String) (names : List String) (b : OpenBlock) :
    (b.fade names).gate? name = if name ∈ names then none else b.gate? name := by
  unfold gate? fade
  cases b.entry with
  | anonymous => simp
  | gate g =>
      by_cases hname : b.session = name
      · by_cases hmem : name ∈ names <;> simp [hname, hmem]
      · simp [hname]

namespace Nesting

/-- The gates of the open blocks of a session that were entered after its last reset, outermost
first. -/
def gates (name : String) (n : Nesting) : List Gate := n.filterMap (OpenBlock.gate? name)

theorem gates_append (name : String) (n others : Nesting) :
    gates name (n ++ others) = gates name n ++ gates name others := List.filterMap_append

/-- Resets take all gates from the stacks of their sessions and none from others. -/
theorem gates_fade (name : String) (names : List String) (n : Nesting) :
    gates name (n.fade names) = if name ∈ names then [] else gates name n := by
  unfold gates fade
  rw [List.filterMap_map]
  have hfade : OpenBlock.gate? name ∘ OpenBlock.fade names =
      fun b => if name ∈ names then none else b.gate? name := by
    funext b
    exact b.gate?_fade name names
  rw [hfade]
  by_cases hmem : name ∈ names
  · simp [hmem]
  · simp only [hmem, ↓reduceIte]

theorem gates_entered (name session : String) (entry : Entry) (n : Nesting) :
    gates name (n ++ [⟨session, entry, true⟩]) =
      match entry with
      | .gate g => if session = name then gates name n ++ [g] else gates name n
      | .anonymous => gates name n := by
  rw [gates_append]
  cases entry with
  | anonymous => exact List.append_nil _
  | gate g =>
      by_cases hname : session = name <;> simp [gates, OpenBlock.gate?, hname]

/-- The stack of a session is that of its open blocks. -/
def Stacked (name : String) (n : Nesting) (w : World) : Prop :=
  (w.session name).stack = n.gates name

/-- The stacks of a world are those of the open blocks. -/
def Shown (n : Nesting) (w : World) : Prop := ∀ name, (w.session name).stack = n.gates name

end Nesting

/-! ### Tasks -/

/-- An operation whose changes are no resets leaves the stack as it was. -/
theorem stack_eq_of_madeFrom {C : Session.Change → Prop} {α : Type} {act : SessionM α}
    (h : SessionM.MadeFrom C act) (hC : ¬ C .reset) :
    SessionM.Moves (fun s t => t.stack = s.stack) act := by
  refine h.moves (fun _ => rfl) (fun s t u hst htu => htu.trans hst) ?_ ?_
  · intro c hc s
    cases c with
    | reset => exact absurd hc hC
    | assign | bind | clearBindings | clearRegistry => rfl
  · intro g s t hst
    show t.stack.take s.depth = s.stack
    rw [hst]
    exact List.take_left

theorem Action.not_makes_reset {a : Action} (h : a ≠ .reset) : ¬ a.Makes .reset := by
  cases a <;> simp_all [Action.Makes, Session.Change.Named, Session.Change.Binds]

theorem run_perform_reset (ctx : Context) :
    (Action.perform .reset).run ctx = (.ok .done, { ctx with session := .fresh }) := rfl

/-- A task empties the stack of its session if it is a reset, and changes no stack otherwise. -/
theorem stacked_task {n : Nesting} {w : World} {other : String} (name : String) (task : Task)
    (h : n.Stacked other w) :
    Nesting.Stacked other (n.after (.done name task)) ((task.perform name).run w).2 := by
  unfold Nesting.Stacked at h ⊢
  cases task with
  | act a =>
      rw [run_perform_act, run_onSession, session_withContext]
      by_cases hreset : a = .reset
      · rw [hreset, run_perform_reset]
        show _ = Nesting.gates other (n.fade [name])
        rw [Nesting.gates_fade, ← h]
        by_cases hname : name = other
        · simp [hname, Session.fresh]
        · simp [hname, Ne.symm hname]
      · have hafter : n.after (.done name (.act a)) = n := by
          unfold Nesting.after
          split <;> first | rfl | simp_all
        rw [hafter, ← h]
        split
        · next hname =>
            rw [← hname]
            exact stack_eq_of_madeFrom a.madeFrom (Action.not_makes_reset hreset) (w.context name)
        · rfl
  | snapshot slot =>
      rw [run_perform_snapshot]
      exact h
  | showSnapshot slot =>
      rw [run_perform_showSnapshot]
      cases w.snapshots.get? slot <;> exact h
  | restore slot =>
      rw [run_perform_restore]
      cases w.snapshots.get? slot with
      | none => exact h
      | some env =>
          show ((w.update name (Context.restore env)).session other).stack = n.gates other
          rw [session_update, ← h]
          split
          · next hname =>
              rw [← hname]
              rfl
          · rfl

/-! ### Blocks -/

theorem stacked_enter {n : Nesting} {w : World} {other : String} (name : String) (entry : Entry)
    (h : n.Stacked other w) :
    Nesting.Stacked other (n ++ [⟨name, entry, true⟩]) (w.update name entry.enter) := by
  unfold Nesting.Stacked at h ⊢
  rw [Nesting.gates_entered, session_update, ← h]
  cases entry with
  | anonymous =>
      split
      · next hname =>
          rw [← hname]
          rfl
      · rfl
  | gate g =>
      dsimp only
      split
      · next hname =>
          rw [← hname]
          rfl
      · rfl

/-- Cutting the stack back to the depth found on entry leaves the gates of the blocks around: all
of them if the session was not reset inside, and none if it was. -/
theorem stacked_leave {n : Nesting} {v w : World} {other : String} (names : List String)
    (name : String) (entry : Entry) (h : n.Stacked other w)
    (hbody : Nesting.Stacked other (Nesting.fade names (n ++ [⟨name, entry, true⟩])) v) :
    Nesting.Stacked other (n.fade names) (v.update name (entry.leave (w.session name))) := by
  have hstack : (v.session other).stack = _ := hbody
  unfold Nesting.Stacked at h ⊢
  rw [Nesting.gates_fade, Nesting.gates_entered] at hstack
  rw [Nesting.gates_fade, session_update]
  cases entry with
  | anonymous =>
      split
      · next hname =>
          rw [← hname] at hstack ⊢
          exact hstack
      · exact hstack
  | gate g =>
      dsimp only at hstack
      split
      · next hname =>
          have hdepth : (w.session name).depth = (n.gates other).length := by
            rw [← h, hname]
            rfl
          show ((v.session name).stack.take (w.session name).depth) = _
          rw [hdepth, hname, hstack]
          split
          · exact List.take_nil
          · exact List.take_left
      · next hname =>
          rw [hstack, if_neg hname]

/-- **Every mark keeps the stack of a session that of its open blocks.** -/
theorem stacked_invariant (other : String) :
    Invariant (fun _ => True) (Nesting.Stacked other) where
  inner _ _ _ := onlyAll_of_forall (fun _ => trivial) _
  state hstate h := (congrArg Session.stack (hstate.1 other)).symm.trans h
  task name task _ _ h := stacked_task name task h
  enter name entry h := stacked_enter name entry h
  leave names name entry h hbody := stacked_leave names name entry h hbody

/-- At every point of a run the stacks are those of the blocks that are open there. -/
theorem shown_lastWorld (level : Int) {program : List Step} {before later : List Moment}
    (h : moments program (.start level) = before ++ later) :
    (openBlocks (marks before)).Shown (lastWorld (.start level) before) := by
  intro name
  have hstart : Nesting.Stacked name [] (World.start level) := rfl
  have honly := onlyAll_of_forall (fun _ => trivial) program
  exact (stacked_invariant name).lastWorld honly hstart h

/-! ### Sessions that are not reset -/

namespace Nesting

/-- Without a reset of their session, blocks that are current stay so, and new ones are. -/
theorem current_run {name : String} {history : List Mark}
    (hreset : Mark.done name (.act .reset) ∉ history) {n : Nesting}
    (hn : ∀ b ∈ n, b.session = name → b.current = true) :
    ∀ b ∈ n.run history, b.session = name → b.current = true := by
  induction history generalizing n with
  | nil => exact hn
  | cons m history ih =>
      rw [List.mem_cons, not_or] at hreset
      refine ih hreset.2 ?_
      intro b hb hname
      unfold after at hb
      split at hb
      · rcases List.mem_append.mp hb with hb | hb
        · exact hn b hb hname
        · rw [List.mem_singleton.mp hb]
      · exact hn b (List.dropLast_subset n hb) hname
      · next session =>
          -- another session is reset, which leaves this block as it was
          obtain ⟨b, hmem, rfl⟩ := List.mem_map.mp hb
          have hother : session ≠ name := fun heq => hreset.1 (heq ▸ rfl)
          have hkept : b.session ∉ [session] := fun hmem =>
            hother ((List.mem_singleton.mp hmem).symm.trans hname)
          simp [OpenBlock.fade, hn b hmem hname, hkept]
      · exact hn b hb hname
      · exact hn b hb hname

/-- The sessions that are reset in the course of some steps are reset by a mark. -/
theorem not_mem_of_not_reset {name : String} {history : List Mark} {names : List String}
    (hnames : ∀ n : Nesting, n.run history = n.fade names)
    (hreset : Mark.done name (.act .reset) ∉ history) : name ∉ names := by
  let b : OpenBlock := ⟨name, .anonymous, true⟩
  have hcurrent := current_run hreset (n := [b]) (by simp [b])
  rw [hnames] at hcurrent
  simpa [fade, OpenBlock.fade, b] using hcurrent

end Nesting

/-- **Steps leave a stack as it was** if they do not reset its session: the blocks that they open
are left again. -/
theorem stack_eq_of_not_reset {name : String} {K : Task → Prop}
    {inner : String → Task → World → List Moment}
    (hclosed : ∀ session task w, Closed (marks (inner session task w)))
    (hinside : ∀ session task, K task →
      Invariant.Inside (Nesting.Stacked name) inner session task)
    {steps : List Step} (hK : onlyAll K steps) {w : World}
    (hreset : Mark.done name (.act .reset) ∉ marks (momentsWith inner steps w)) :
    ((runAll steps w).2.2.session name).stack = (w.session name).stack := by
  -- blocks that account for the stack as it is
  let n : Nesting := (w.session name).stack.map fun g => ⟨name, .gate g, true⟩
  have hgates : n.gates name = (w.session name).stack := by
    simp [n, Nesting.gates, List.filterMap_map, Function.comp_def, OpenBlock.gate?]
  have hstart : n.Stacked name w := hgates.symm
  have hend := (runAll_along (stacked_invariant name) hclosed hinside steps hK hstart).2
  obtain ⟨names, hnames⟩ := closed_momentsWith hclosed steps w
  have hkept : name ∉ names := Nesting.not_mem_of_not_reset hnames hreset
  calc ((runAll steps w).2.2.session name).stack
      = (n.run (marks (momentsWith inner steps w))).gates name := hend
    _ = (n.fade names).gates name := by rw [hnames]
    _ = n.gates name := by rw [Nesting.gates_fade, if_neg hkept]
    _ = (w.session name).stack := hgates

/-! ### Entry and exit -/

/-- A block is refused if its argument is the name of the global scope, and if it is neither a
gate nor a text with a character in it. -/
theorem entry_eq_error_iff (d : Document) (e : Failure) :
    (Block.gate (.ok d)).entry = .error e ↔
      (d = .ofText globalScope ∧ e = .reservedGate) ∨
        ((∀ g, d ≠ .atom (.gate g)) ∧ (∀ s, d = .ofText s → s = "") ∧
          e = .wrongKind (.gateLike d)) := by
  rw [← Scope.ofDocument_eq_global_iff, ← Scope.ofDocument_eq_error_iff]
  have hentry : (Block.gate (.ok d)).entry = (do
      let scope ← Scope.ofDocument d
      let g ← scope.toGate
      return Entry.gate g) := rfl
  rw [hentry]
  cases hscope : Scope.ofDocument d with
  | error e' => simp [bind, Except.bind]
  | ok scope =>
      cases scope with
      | global => simp [bind, Except.bind, Scope.toGate, eq_comm]
      | gate g => simp [bind, Except.bind, Scope.toGate, pure, Except.pure]

/-- A block that is refused leaves all sessions alone and none of its steps is run. -/
theorem run_refused_block (name : String) (raises : Bool) {block : Block} (body : List Step)
    (w : World) {e : Failure} (h : block.entry = .error e) :
    let step := Step.block name raises block body
    (step.run w).1 = .task (.error e) w.journal.records (w.session name) ∧
      Alike (step.run w).2.2 w ∧
      moments [step] w = [⟨.refused name e, (step.run w).2.2⟩] := by
  intro step
  have hrun : step.run w = _ := Step.run_refused name raises body w h
  refine ⟨?_, ?_, ?_⟩
  · rw [hrun]
  · rw [hrun]
    exact alike_flush w
  · show momentsWith Task.moments [Step.block name raises block body] w = _
    unfold momentsWith momentsWith Step.momentsWith
    rw [hrun, h]
    cases leaving raises (.error e : Except Failure Unit) <;> rfl

/-- Leaving a block adds no failure: the block fails as its body does. -/
theorem run_entered_block (name : String) (raises : Bool) {block : Block} {entry : Entry}
    (body : List Step) (w : World) (h : block.entry = .ok entry) :
    let step := Step.block name raises block body
    let inside := runAll body (w.update name entry.enter)
    (∃ records session, (step.run w).1 =
        .block entry inside.1 (blockOutcome inside.2.1 inside.1.length) records session) ∧
      (step.run w).2.1 = if raises then inside.2.1 else none := by
  intro step inside
  have hrun : step.run w = _ := Step.run_entered name raises body w h
  rw [hrun]
  refine ⟨⟨_, _, rfl⟩, ?_⟩
  show leaving raises (blockOutcome inside.2.1 inside.1.length) = _
  cases inside.2.1 <;> cases raises <;> rfl

/-- **The stack is the lexical nesting.**  At every point of every run the stack of a session
lists the gates of its open blocks entered after its last reset, which settles its depth and
what is ambient.  A block that was entered fails exactly as its body does.  A block that is
refused leaves all sessions alone and none of its steps is run; this happens if the block is
named after the global scope, or by nothing or by something else than a gate. -/
theorem stack_eq_open_gates (level : Int) (program : List Step) :
    (∀ before later, moments program (.start level) = before ++ later → ∀ name,
      let s := (lastWorld (.start level) before).session name
      let gates := (openBlocks (marks before)).gates name
      s.stack = gates ∧ s.depth = gates.length ∧
        s.ambient.name = (gates.getLast?.map Gate.name).getD globalScope) ∧
    (∀ name raises block entry body w, Block.entry block = .ok entry →
      let step := Step.block name raises block body
      let inside := runAll body (w.update name entry.enter)
      (∃ records session, (step.run w).1 =
          .block entry inside.1 (blockOutcome inside.2.1 inside.1.length) records session) ∧
        (step.run w).2.1 = if raises then inside.2.1 else none) ∧
    (∀ name raises block e body w, Block.entry block = .error e →
      let step := Step.block name raises block body
      (step.run w).1 = .task (.error e) w.journal.records (w.session name) ∧
        Alike (step.run w).2.2 w ∧
        moments [step] w = [⟨.refused name e, (step.run w).2.2⟩]) ∧
    (∀ d e, (Block.gate (.ok d)).entry = .error e ↔
      (d = .ofText globalScope ∧ e = .reservedGate) ∨
        ((∀ g, d ≠ .atom (.gate g)) ∧ (∀ s, d = .ofText s → s = "") ∧
          e = .wrongKind (.gateLike d))) := by
  refine ⟨?_, ?_, ?_, entry_eq_error_iff⟩
  · intro before later hmoments name s gates
    have hstack : s.stack = gates := shown_lastWorld level hmoments name
    refine ⟨hstack, congrArg List.length hstack, ?_⟩
    unfold Session.ambient
    rw [hstack]
    cases gates.getLast? <;> rfl
  · intro name raises block entry body w hentry
    exact run_entered_block name raises body w hentry
  · intro name raises block e body w hentry
    exact run_refused_block name raises body w hentry

/-- A reset inside two blocks, and a block after it. -/
example :
    let block (gate : String) (body : List Step) :=
      Step.block "s" false (.gate (.ok (.ofText gate))) body
    let program := [block "a" [block "b" [.task "s" false (.act .reset), block "c" []]]]
    (moments program (.start 0)).map (fun m => (m.world.session "s").stack.map Gate.name) =
      [["a"], ["a", "b"], [], ["c"], [], [], []] := by
  decide

end Program

end FuzzyGates
