import ObjectBridge.Handle.Text

/-!
# Signals

A connection calls a host function when its instance emits a signal.  The host function gets the
emitter, the arguments of the signal and the user data, and may decide a truth value.  An emission
runs the connections that were made before it started, in the order in which they were made.
-/

namespace ObjectBridge
namespace Signal

open Program Descriptor

/-- The greatest number of arguments of a signal that can be connected. -/
def maxArguments : Nat := 2

/-- Whether the answer to a signal is a truth value. -/
def answersTruth (signal : Token) : Bridge Bool :=
  Bridge.region keepNothing do
    match ← result? signal with
    | none => return false
    | some result =>
      let e ← entry result
      match e.tag with
      | .void => return false
      | .boolean => return true
      | other => do
        let s ← entry signal
        throw (.unsupported ("signal " ++ s.shownName ++ " returning " ++ other.name))

/-- The type of an argument of a signal. -/
def argumentType (signal : Token) (name : String) (index : Nat) : Bridge Token :=
  Bridge.region Descriptor.claims do
    let missing : Failure := .unsupported ("signal " ++ name ++ " argument " ++ toString index)
    match ← argument? signal index with
    | none => throw missing
    | some argument =>
      match ← declared? argument with
      | none => throw missing
      | some type => return type

/-- Attach a connection to an instance whose type or an ancestor of it has the signal. -/
def attach (a : Address) (signal : String) (reaction : Reaction) : Runtime Nat := do
  let i ← liveInstance a
  let db ← database
  match db.chainMember? i.number .signal signal with
  | none => throw (.signal ("no signal named '" ++ signal ++ "'"))
  | some _ => request (.attach a signal reaction)

/-- Connect a host function to a signal of the instance of a handle. -/
def connect (h : HandleId) (name : String) (target : Script.Target) (userData : Option Value) :
    Bridge Nat :=
  Bridge.region keepNothing do
    let r ← handleRecord h
    let info ← Handle.typed r
    let e ← entry info
    if e.kind ≠ .object || !r.isBound then
      let shown ← Handle.text h
      throw (.mismatch "bound object handle" shown)
    match ← Member.findSignal info name with
    | none => throw (.signalUnsupported name)
    | some signal =>
      let s ← entry signal
      let arity := s.arguments.length
      if maxArguments < arity then throw (.callbackArity arity)
      let truth ← answersTruth signal
      let types ← Bridge.each (argumentType signal name) (List.range arity)
      let relay : Relay :=
        { signal := signal
          emitterType := info
          target := target
          userData := userData
          argumentTypes := types
          answersTruth := truth }
      Bridge.ofRuntime .runtime (attach r.address s.shownName (.relay relay))

/-- The value of an argument of a signal.  Instances of object and interface types are only viewed;
an argument that cannot be decoded is absent, and the host is warned. -/
def argumentValue (signal : String) (slot : Slot) (type : Token) : Program Value :=
  region Value.claims do
    let viewed ← viewedTarget type
    match viewed with
    | some target =>
      if slot.isNull then return .nil
      let h ← Handle.borrowed (some target) slot.address
      return .handle h
    | none =>
      match ← (Codec.decode slot type).run with
      | .ok v => return v
      | .error f => do
        warn ("signal " ++ signal ++ ": argument not converted: " ++ f.message)
        return .nil
where
  /-- The object or interface type that a type refers to. -/
  viewedTarget (type : Token) : Program (Option Token) := do
    match ← target? type with
    | none => return none
    | some target => do
      let e ← entry target
      return if e.kind = .object || e.kind = .interface then some target else none

/-- The values of the arguments of a signal. -/
def argumentValues (signal : String) : List Slot → List Token → Program (List Value)
  | slot :: slots, type :: types => do
    let v ← argumentValue signal slot type
    let vs ← argumentValues signal slots types
    return v :: vs
  | _, _ => return []

/-- Call the host function of a connection.  There is no value if the host function failed, and the
host is warned. -/
def deliver (r : Relay) (emitter : Slot) (extras : List Slot) : Program (Option Value) := do
  let s ← entry r.signal
  let sender ← Codec.wrapInstance emitter.address r.emitterType true
  let values ← argumentValues s.shownName extras r.argumentTypes
  let data := r.userData.toList
  forEach (fun v => forEach hold v.claims) data
  let outcome : Except String Value ← request (.callHost r.target (sender :: values ++ data))
  match outcome with
  | .ok v => return some v
  | .error message => do
    warn ("callback for signal " ++ s.shownName ++ " failed: " ++ message)
    return none

/-- Deliver the slots of an emission, the first of which is the emitter, if there are as many as
the signal declares. -/
def dispatch (r : Relay) (slots : List Slot) : Program (Option Value) := do
  let arity := r.argumentTypes.length
  if slots.length = arity + 1 then deliver r (slots.headD .zero) slots.tail
  else
    let s ← entry r.signal
    warn ("signal " ++ s.shownName ++ " delivered " ++ toString slots.length
      ++ " slots, expected " ++ toString (arity + 1))
    return none

/-- The answer of a connection to an emission. -/
def react (reaction : Reaction) (slots : List Slot) : Program Slot :=
  match reaction with
  | .fixed reply => return reply
  | .relay r => region keepNothing do
    let answer ← dispatch r slots
    let s ← store
    let truth := match answer with
      | some v => Codec.truthy s v
      | none => false
    return .ofBool (r.answersTruth && truth)

/-- Run connections one after the other; the answer is that of the last one. -/
def runAll (slots : List Slot) : List ClosureId → Option Slot → Program (Option Slot)
  | [], last => return last
  | c :: rest, _ => do
    let s ← store
    match s.closures.get? c with
    | some closure => do
      let answer ← react closure.reaction slots
      runAll slots rest (some answer)
    | none => stop .ended

/-- Emit a signal on an instance.  The connections are held until all of them have run. -/
def emit (a : Address) (signal : String) (arguments : List Slot) : Program (Option Slot) :=
  region keepNothing do
    let i ← liveInstance a
    let chosen := (i.connections.filter fun c => c.signal = signal).map Connection.closure
    forEach (fun c => hold (.closure c)) chosen
    runAll (.ofAddress a :: arguments) chosen none

end Signal
end ObjectBridge
