import ObjectBridge.Session.Function
import ObjectBridge.Session.Respond

/-!
# Running a session

A session runs its steps one after the other and then drops all variables and globals.  A step that
fails or panics ends there, and what it did before stays done; its temporaries are given back
however it ended.
-/

namespace ObjectBridge
namespace Session

/-- The verdict on a step that stopped. -/
def verdictOfStop : Stop → Verdict
  | .panicked message => .panic (Text.redact message)
  | .ended => .ended
  | .malformed reason => .malformed reason

/-- The verdict on a step whose temporaries were given back. -/
def closeVerdict (verdict : Verdict) : Outcome Unit → Verdict
  | .done _ => verdict
  | .stopped why => verdictOfStop why

/-- The verdict on a step that stopped while its temporaries were given back: a second panic ends
the process. -/
def unwindVerdict (why : Stop) : Outcome Unit → Verdict
  | .done _ => verdictOfStop why
  | .stopped _ => .ended

/-- Run a step. -/
def judge (calls : Calls) (step : Script.Step) (w : World) : Verdict × World :=
  let mark := w.store.held.length
  match (respond step).run.run calls w with
  | (.done (.ok report), w) =>
    let (outcome, w) := w.settle mark []
    (closeVerdict (.success report) outcome, w)
  | (.done (.error failure), w) =>
    let (outcome, w) := w.settle mark []
    (closeVerdict (.failure failure) outcome, w)
  | (.stopped why, w) =>
    let (outcome, w) := w.settle mark []
    (unwindVerdict why outcome, w)

/-- Run a step inside a function, and note how it ended. -/
def judgeNested (calls : Calls) (step : Script.Step) : Action Unit := fun w =>
  match judge calls step w with
  | (.ended, w) => (.stopped .ended, w)
  | (verdict, w) => (.done (), { w with events := .step verdict :: w.events })

/-- What runs the functions and the nested steps of a session, to a depth; below it the process
ends. -/
def calls : Nat → Calls
  | 0 =>
    { native := fun _ _ _ w => (.stopped .ended, w)
      host := fun _ _ w => (.stopped .ended, w)
      assign := fun _ _ w => (.stopped .ended, w)
      step := fun _ w => (.stopped .ended, w) }
  | depth + 1 =>
    { native := fun callable inputs outputs =>
        (callNative callable inputs outputs).run (calls depth)
      host := fun target arguments => (callHost target arguments).run (calls depth)
      assign := fun name v => (assignGlobal name v).run (calls depth)
      step := judgeNested (calls depth) }

/-- Run a step of the session itself, and collect the events. -/
def advance (depth : Nat) (step : Script.Step) (w : World) : Answer × World :=
  let (verdict, w) := judge (calls depth) step { w with events := [] }
  (⟨verdict, w.events.reverse⟩, w)

/-- Run the steps of a session. -/
def advanceAll (depth : Nat) : List Script.Step → World → List Answer × World
  | [], w => ([], w)
  | step :: rest, w =>
    let (answer, w) := advance depth step w
    let (answers, w) := advanceAll depth rest w
    (answer :: answers, w)

/-- The message of a panic, if an outcome is one. -/
def panicOf {α : Type} : Outcome α → List String
  | .stopped (.panicked message) => [Text.redact message]
  | _ => []

/-- Drop things by their names, one after the other, and collect the messages of panics. -/
def dropAll (drop : World → String → Outcome Bool × World) :
    List String → World → List String × World
  | [], w => ([], w)
  | name :: rest, w =>
    let (outcome, w) := drop w name
    let (others, w) := dropAll drop rest w
    (panicOf outcome ++ others, w)

/-- Drop all variables, oldest binding first. -/
def dropVariables (w : World) : List String × World :=
  dropAll World.unbind (w.store.bindings.map fun binding => binding.1) w

/-- Drop all globals, in the order of their names. -/
def dropGlobals (w : World) : List String × World :=
  dropAll World.dropGlobal
    ((w.store.globals.map fun binding => binding.1).mergeSort fun a b => a ≤ b) w

/-- What a session answered. -/
structure Transcript where
  /-- The answers to the steps, in order. -/
  answers : List Answer
  /-- The counts after everything was dropped. -/
  totals : Totals
  /-- The messages of the panics while everything was dropped. -/
  panics : List String
  deriving Inhabited

/-- The world at the start of a session. -/
def start (options : Options) : World :=
  { options := options, tracing := options.diagnostics }

/-- How deep the functions of a session may call each other. -/
def depthLimit : Nat := 1000

/-- Run a session. -/
def run (options : Options) (steps : List Script.Step) : Transcript :=
  let (answers, w) := advanceAll depthLimit steps (start options)
  let (fromVariables, w) := dropVariables w
  let (fromGlobals, w) := dropGlobals w
  { answers := answers, totals := w.store.totals, panics := fromVariables ++ fromGlobals }

end Session
end ObjectBridge
