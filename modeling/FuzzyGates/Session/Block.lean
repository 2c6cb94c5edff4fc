import FuzzyGates.Session.Basic

/-!
# Gate blocks and anonymous scopes

Inside a gate block the gate is the ambient one.  Leaving it cuts the stack
back to the depth found on entry, which undoes whatever the block did to it.
Leaving an anonymous scope restores the environment found on entry; gate
expressions are not rolled back.
-/

namespace FuzzyGates

namespace Context

/-- Record an event. -/
def note (ctx : Context) (e : Log.Event) : Context :=
  { ctx with journal := ctx.journal.note e }

/-- Enter a gate block. -/
def enterGate (g : Gate) (ctx : Context) : Context :=
  let ctx := ctx.note (.enteredGate g ctx.session.ambient)
  { ctx with session := { ctx.session with stack := ctx.session.stack ++ [g] } }

/-- Leave a gate block that was entered at a depth. -/
def leaveGate (depth : Nat) (g : Gate) (ctx : Context) : Context :=
  let session := { ctx.session with stack := ctx.session.stack.take depth }
  { ctx with session := session }.note (.leftGate g session.ambient)

/-- Replace the bindings by those of a snapshot. -/
def restore (saved : Environment) (ctx : Context) : Context :=
  { ctx with session := { ctx.session with env := saved } }.note
    (.restored saved.globals.size saved.scopes.size)

/-- Enter an anonymous scope. -/
def enterAnonymous (ctx : Context) : Context :=
  ctx.note (.enteredAnonymous ctx.session.env.variableCount)

/-- Leave an anonymous scope that was entered with the given bindings. -/
def leaveAnonymous (saved : Environment) (ctx : Context) : Context :=
  (ctx.restore saved).note .leftAnonymous

end Context

namespace Session

/-- Run an operation inside a gate block, which is left however the operation ends. -/
def withGate (g : Gate) (act : SessionM α) : SessionM α :=
  ExceptT.mk fun ctx =>
    let (result, after) := act.run (ctx.enterGate g)
    (result, after.leaveGate ctx.session.depth g)

end Session

end FuzzyGates
