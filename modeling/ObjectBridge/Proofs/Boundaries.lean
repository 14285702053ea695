import ObjectBridge.Session.Run

/-!
# Step boundaries

A step boundary of a session is a moment just before or just after one of its steps.  The steps
inside native functions and host functions have boundaries too, so the boundaries of a run are
collected along the run itself: a stage gives, next to what runs the functions and the nested steps,
the worlds at the boundaries inside them.
-/

namespace ObjectBridge

/-- What runs the functions and the nested steps of a session, with the boundaries inside them. -/
structure Stage where
  /-- What runs them. -/
  calls : Calls
  /-- The boundaries inside a native function. -/
  native : Token → List Slot → List Slot → World → List World
  /-- The boundaries inside a host function. -/
  host : Script.Target → List Value → World → List World
  /-- The boundaries inside the setting of a global. -/
  assign : String → Value → World → List World
  /-- The boundaries of a nested step. -/
  step : Script.Step → World → List World

/-- The world in which a native function starts. -/
def World.entering (w : World) : World :=
  if w.options.containment then { w with signals := .guarded } else w

/-- The boundaries inside the answer to a request. -/
def Request.seen (stage : Stage) (w : World) : Request → List World
  | .invoke callable inputs outputs => stage.native callable inputs outputs w.entering
  | .callHost target arguments => stage.host target arguments w
  | .assignGlobal name v => stage.assign name v w
  | .perform step => stage.step step w
  | _ => []

/-- The boundaries inside a run of a program. -/
def Program.seen {α : Type} (stage : Stage) : Program α → World → List World
  | .done _, _ => []
  | .ask request next, w =>
    request.seen stage w
      ++ match w.answer stage.calls request with
         | (.done reply, w) => (next reply).seen stage w
         | (.stopped _, _) => []

namespace Session

/-- The boundaries of a step: before it, inside it and after it. -/
def around (stage : Stage) (step : Script.Step) (w : World) : List World :=
  w :: (respond step).run.seen stage w ++ [(judge stage.calls step w).2]

/-- What runs the functions and the nested steps of a session to a depth, with the boundaries. -/
def stage : Nat → Stage
  | 0 =>
    { calls := calls 0
      native := fun _ _ _ _ => []
      host := fun _ _ _ => []
      assign := fun _ _ _ => []
      step := fun _ _ => [] }
  | depth + 1 =>
    { calls := calls (depth + 1)
      native := fun callable inputs outputs => (callNative callable inputs outputs).seen (stage depth)
      host := fun target arguments => (callHost target arguments).seen (stage depth)
      assign := fun name v => (assignGlobal name v).seen (stage depth)
      step := around (stage depth) }

@[simp]
theorem stage_calls (depth : Nat) : (stage depth).calls = calls depth := by
  cases depth <;> rfl

/-- The boundaries of the steps of a session, nested ones included. -/
def boundaries (depth : Nat) : List Script.Step → World → List World
  | [], w => [w]
  | step :: rest, w =>
    around (stage depth) step { w with events := [] }
      ++ boundaries depth rest (advance depth step w).2

end Session
end ObjectBridge
