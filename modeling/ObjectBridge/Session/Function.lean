import ObjectBridge.Session.Show
import ObjectBridge.Signal

/-!
# Functions of a session

The native functions and the host functions of a session are scripts.  A native function shows its
slots, raises signals, stores out slots, emits a signal, runs steps and gives a result, in this
order.  A host function binds its arguments to variables for as long as its steps run.
-/

namespace ObjectBridge
namespace Session

open Program Script

/-- Store the out slots that a native function sets; a position past the end is ignored. -/
def storeOutputs : List (Nat × SlotTerm) → List Slot → Program (List Slot)
  | [], slots => return slots
  | (index, term) :: rest, slots => do
    let slot ← slotOf term
    storeOutputs rest (slots.set index slot)

/-- The in slot of a native function at a position, zero past the end. -/
def inputAt (inputs : List Slot) (index : Nat) : Slot := inputs.getD index .zero

/-- Emit the signal of a native function. -/
def emitFrom (inputs : List Slot) (e : Emission) : Program Unit := do
  let receiver := inputAt inputs e.receiver
  let arguments ← each slotOf e.arguments
  let answer ← Signal.emit receiver.address e.signal arguments
  request (.note (.emitted (answer.map Slot.toBool)))

/-- The result of a native function. -/
def resultOf (inputs : List Slot) : NativeResult → Program Slot
  | .input index => return inputAt inputs index
  | .references index => do
    let i ← liveInstance (inputAt inputs index).address
    return .ofInteger ⟨32, true⟩ i.references
  | .fresh type label => do
    let t ← entryOf type
    let e ← entry t
    let a : Address ← request (.createDirect e.number)
    request (.label label a)
    return .ofAddress a
  | .quotient dividend divisor =>
    return .ofReal64
      ((inputAt inputs dividend).toReal64.quotient (inputAt inputs divisor).toReal64)
  | .slot term => slotOf term

/-- Run the steps of a function. -/
def performAll (steps : List Step) : Program Unit :=
  forEach (fun s => request (.perform s)) steps

/-- Run the script of a native function. -/
def runNative (name : String) (native : Native Step) (inputs outputs : List Slot) :
    Program (Except String Slot × List Slot) := do
  let shownInputs ← showSlots native.inViews inputs
  let shownOutputs ← showSlots native.outViews outputs
  request (.note (.native name inputs.length outputs.length shownInputs shownOutputs))
  forEach (fun signal => request (.raise signal)) native.raises
  let outputs ← storeOutputs native.outputs outputs
  match native.emission with
  | some e => emitFrom inputs e
  | none => pure ()
  performAll native.steps
  match native.error with
  | some text => return (.error text, outputs)
  | none => do
    let slot ← resultOf inputs native.result
    return (.ok slot, outputs)

/-- Call a native function; one without an implementation reports that. -/
def callNative (callable : Token) (inputs outputs : List Slot) :
    Program (Except String Slot × List Slot) := do
  let e ← entry callable
  let b ← bench
  match b.natives.lookup callable with
  | some native => runNative e.shownName native inputs outputs
  | none => return (.error (e.shownName ++ " has no native implementation"), outputs)

/-- Bind arguments to variables, as long as there are both. -/
def bindArguments : List String → List Value → Program Unit
  | name :: names, v :: vs => do
    request (.bind name v)
    bindArguments names vs
  | _, _ => return ()

/-- Remove variables. -/
def unbindAll (names : List String) : Program Unit :=
  forEach (fun name => do
    let _ : Bool ← request (.unbind name)
    return ()) names

/-- Run the script of a host function, which takes the temporary claims of its arguments. -/
def runHost (f : HostFunction Step) (arguments : List Value) : Program (Except String Value) := do
  bindArguments f.parameters arguments
  forEach letGo (arguments.flatMap Value.claims)
  performAll f.steps
  let outcome ←
    match f.error with
    | some text => pure (.error text)
    | none => do
      let v ← valueOf f.result
      pure (.ok v)
  unbindAll f.parameters
  return outcome

/-- The name of the function of a target. -/
def targetName : Target → String
  | .named function | .closure function => function

/-- Call a host function; one that was never defined reports that. -/
def callHost (target : Target) (arguments : List Value) : Program (Except String Value) := do
  let shown ← each showValue arguments
  request (.note (.call target shown))
  let b ← bench
  match b.functions.lookup (targetName target) with
  | some f => runHost f arguments
  | none => do
    forEach letGo (arguments.flatMap Value.claims)
    return .error ("undefined function " ++ targetName target)

/-- Set a global of the host, which notes the value first. -/
def assignGlobal (name : String) (v : Value) : Program Unit := do
  let shown ← showValue v
  request (.note (.global name shown))
  request (.storeGlobal name v)

end Session
end ObjectBridge
