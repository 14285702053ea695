import ObjectBridge.Memory
import ObjectBridge.Options
import ObjectBridge.Release
import ObjectBridge.Report

/-!
# The world of a session

The world is everything that a session can change: the type database, the store of counted things,
native memory, the containment of fatal signals, and what the script of the session has named.
-/

namespace ObjectBridge

/-- What the script of a session has named and defined. -/
structure Bench where
  /-- The identified entries, newest first. -/
  identifiers : List (String × Token) := []
  /-- The labels of addresses, oldest first. -/
  book : List (String × Address) := []
  /-- The implementations of native functions, by entry. -/
  natives : List (Token × Script.Native Script.Step) := []
  /-- The host functions, newest first. -/
  functions : List (String × Script.HostFunction Script.Step) := []
  deriving Inhabited

/-- The world of a session. -/
structure World where
  /-- The type database. -/
  database : Database := {}
  /-- The counted things. -/
  store : Store := {}
  /-- Native memory. -/
  memory : Memory := {}
  /-- The containment of fatal signals. -/
  signals : Containment.State := {}
  /-- The options of the bridge. -/
  options : Options := {}
  /-- Whether diagnostics are traced. -/
  tracing : Bool := false
  /-- The namespaces that were required, with their versions. -/
  required : List (String × String) := []
  /-- What the script has named and defined. -/
  bench : Bench := {}
  /-- The events since the last answer, newest first. -/
  events : List Event := []
  deriving Inhabited

/-- Why a program stopped before its end. -/
inductive Stop where
  /-- The program panicked. -/
  | panicked (message : String)
  /-- The process ended. -/
  | ended
  /-- The script asked for something that does not exist. -/
  | malformed (reason : String)
  deriving DecidableEq, Repr

/-- How a program ended. -/
inductive Outcome (α : Type) where
  /-- With a value. -/
  | done (value : α)
  /-- Before its end. -/
  | stopped (stop : Stop)
  deriving Repr

/-- Change the value of an outcome. -/
def Outcome.map {α β : Type} (f : α → β) : Outcome α → Outcome β
  | .done value => .done (f value)
  | .stopped stop => .stopped stop

/-- The panic of an operation on an address that is not that of a live instance. -/
def Stop.notLive (a : Address) : Stop :=
  .panicked ("0x" ++ Text.hexDigits a ++ " is not a live instance")

/-- How giving claims back ends: without faults it is done, the first fault panics, and a second
one during that panic ends the process. -/
def Outcome.ofFaults : List Address → Outcome Unit
  | [] => .done ()
  | [a] => .stopped (.notLive a)
  | _ => .stopped .ended

/-- The counts of a store. -/
def Store.totals (s : Store) : Totals :=
  { live := s.live
    created := s.created
    finalized := s.finalized
    entryReferences := s.ledger.total }

namespace World

/-- Give claims back. -/
def release (w : World) (claims : List Claim) : Outcome Unit × World :=
  let (faults, store) := w.store.release claims
  (.ofFaults faults, { w with store := store })

end World

end ObjectBridge
