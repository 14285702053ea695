import ObjectBridge.Failure
import ObjectBridge.Script

/-!
# Reports, events and answers

A step answers with a report, which is a tree of plain data.  What the host and the native
functions see while the step runs is noted as events, in order.
-/

namespace ObjectBridge

/-- A tree of plain data. -/
inductive Report where
  /-- The absent report. -/
  | none
  /-- A truth value. -/
  | bool (b : Bool)
  /-- An integer. -/
  | int (n : Int)
  /-- A text. -/
  | text (content : String)
  /-- A 32-bit real number. -/
  | real32 (r : Real32)
  /-- A 64-bit real number. -/
  | real64 (r : Real64)
  /-- A list. -/
  | list (items : List Report)
  /-- Named parts. -/
  | record (parts : List (String × Report))
  deriving Repr, Inhabited

namespace Report

/-- The report of a natural number. -/
def nat (n : Nat) : Report := .int n

/-- The report of something that may be absent. -/
def option {α : Type} (f : α → Report) : Option α → Report
  | some x => f x
  | Option.none => .none

/-- The report of a list. -/
def each {α : Type} (f : α → Report) (items : List α) : Report := .list (items.map f)

/-- The report of a list of texts. -/
def texts (items : List String) : Report := each .text items

end Report

/-- How a step ended. -/
inductive Verdict where
  /-- With a report. -/
  | success (report : Report)
  /-- With a failure. -/
  | failure (failure : Failure)
  /-- With a panic, whose message is given. -/
  | panic (message : String)
  /-- Not at all: the process ended. -/
  | ended
  /-- The step was not well formed. -/
  | malformed (reason : String)
  deriving Repr, Inhabited

/-- What was seen while a step ran. -/
inductive Event where
  /-- The host was warned. -/
  | warning (text : String)
  /-- A global of the host was set. -/
  | global (name : String) (value : Report)
  /-- A host function was called. -/
  | call (target : Script.Target) (arguments : List Report)
  /-- A native function was called. -/
  | native (name : String) (inCount outCount : Nat) (inputs outputs : List Report)
  /-- A native function emitted a signal; the truth of the answer is given if there was one. -/
  | emitted (answer : Option Bool)
  /-- A step ran inside a function. -/
  | step (verdict : Verdict)
  deriving Repr, Inhabited

/-- How a step of the session ended, and what was seen while it ran. -/
structure Answer where
  /-- How the step ended. -/
  verdict : Verdict
  /-- The events, in order. -/
  events : List Event
  deriving Repr, Inhabited

/-- The counts that a session shows at its end. -/
structure Totals where
  /-- The number of live instances. -/
  live : Nat
  /-- The number of instances created. -/
  created : Nat
  /-- The number of instances finalized. -/
  finalized : Nat
  /-- The number of references to entries that were not given back. -/
  entryReferences : Int
  deriving DecidableEq, Repr, Inhabited

end ObjectBridge
