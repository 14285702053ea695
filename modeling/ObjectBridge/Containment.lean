/-!
# Containment of fatal signals

While a contained native call runs, both fatal signals are recorded instead of ending the process.
A signal that is recorded twice in a row gets its default disposition back, so a third one ends the
process.  Entering a call saves the record and the dispositions, and leaving it restores them, so
nested calls do not see each other's signals.
-/

namespace ObjectBridge

/-- A signal that ends the process unless it is contained. -/
inductive FatalSignal where
  /-- The process aborts. -/
  | abort
  /-- A memory access failed. -/
  | segfault
  deriving DecidableEq, Repr

/-- The name of a fatal signal. -/
def FatalSignal.name : FatalSignal → String
  | abort => "SIGABRT"
  | segfault => "SIGSEGV"

namespace Containment

/-- What happens when a fatal signal is raised. -/
inductive Disposition where
  /-- The process ends. -/
  | terminate
  /-- The signal is recorded. -/
  | recording
  deriving DecidableEq, Repr

/-- The recorded signal and the dispositions of both signals. -/
structure State where
  /-- The signal recorded last and not yet taken. -/
  pending : Option FatalSignal := none
  /-- The disposition of the abort signal. -/
  abort : Disposition := .terminate
  /-- The disposition of the segmentation fault. -/
  segfault : Disposition := .terminate
  deriving DecidableEq, Repr, Inhabited

namespace State

/-- The disposition of a signal. -/
def disposition (s : State) : FatalSignal → Disposition
  | .abort => s.abort
  | .segfault => s.segfault

/-- Give a signal its default disposition. -/
def reset (s : State) : FatalSignal → State
  | .abort => { s with abort := .terminate }
  | .segfault => { s with segfault := .terminate }

/-- The state in which a contained call starts. -/
def guarded : State :=
  { pending := none, abort := .recording, segfault := .recording }

/-- Raise a signal; nothing is left when the process ends. -/
def raise? (s : State) (signal : FatalSignal) : Option State :=
  match s.disposition signal with
  | .terminate => none
  | .recording =>
    let recorded := { s with pending := some signal }
    some (if s.pending = some signal then recorded.reset signal else recorded)

end State
end Containment
end ObjectBridge
