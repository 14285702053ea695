import ObjectBridge.Codec.Decode
import ObjectBridge.Codec.Encode

/-!
# Calling native code

A call checks the number of its arguments and the receiver, encodes every argument in the order of
declaration, calls the native function with the in and out slots, and decodes the result.  The
storage of the arguments lives until the result is decoded.
-/

namespace ObjectBridge

/-- A parameter of a callable. -/
structure SignatureParameter where
  /-- The name. -/
  name : String
  /-- Which way the argument travels. -/
  passing : Passing
  /-- The declared type. -/
  type : Token
  deriving DecidableEq, Repr

/-- The signature of a callable. -/
structure Signature where
  /-- The parameters, in the order of declaration. -/
  parameters : List SignatureParameter
  /-- The type of the result. -/
  result : Option Token
  /-- Whether the callable takes an instance as its receiver. -/
  isMethod : Bool
  /-- Whether the callable may fail. -/
  fails : Bool
  deriving DecidableEq, Repr

namespace Signature

open Program Descriptor

/-- The claims of a signature. -/
def claims (s : Signature) : List Claim :=
  (s.parameters.map fun p => .entry p.type) ++ entryClaims s.result

/-- The claims of a parameter. -/
def parameterClaims (p : SignatureParameter) : List Claim := [.entry p.type]

/-- A parameter of a callable. -/
def parameter (callable : Token) (index : Nat) : Bridge SignatureParameter :=
  Bridge.region parameterClaims do
    let e ← entry callable
    let missing : Failure := .unsupported (e.shownName ++ " argument " ++ toString index)
    match ← argument? callable index with
    | none => throw missing
    | some argument =>
      match ← declared? argument with
      | none => throw missing
      | some type =>
        let a ← entry argument
        return ⟨a.shownName, a.passing, type⟩

/-- The signature of a callable. -/
def ofCallable (callable : Token) : Bridge Signature :=
  Bridge.region claims do
    let e ← entry callable
    let parameters ← Bridge.each (parameter callable) (List.range e.arguments.length)
    let flags := if e.kind = .function then e.callableFlags else .empty
    let result ← result? callable
    return {
      parameters := parameters
      result := result
      isMethod := flags.contains CallableFlag.method
      fails := flags.contains CallableFlag.fails }

/-- The number of parameters. -/
def arity (s : Signature) : Nat := s.parameters.length

end Signature

namespace Call

open Program

/-- The slots of a native call. -/
structure Slots where
  /-- The in slots. -/
  inputs : List Slot
  /-- The out slots. -/
  outputs : List Slot
  deriving DecidableEq, Repr

/-- Add the slot of an argument at the end, in the direction in which it travels. -/
def Slots.add (s : Slots) (passing : Passing) (slot : Slot) : Slots :=
  match passing with
  | .into => { s with inputs := s.inputs ++ [slot] }
  | .out => { s with outputs := s.outputs ++ [slot] }
  | .both => { inputs := s.inputs ++ [slot], outputs := s.outputs ++ [slot] }

/-- Encode arguments in the order of declaration, after those that are encoded already. -/
def encodeArguments : List SignatureParameter → List Value → Slots → Codec.ArgumentBlock →
    Bridge (Slots × Codec.ArgumentBlock)
  | p :: ps, v :: vs, slots, block => do
    let (slot, block) ← Codec.encode v p.type block
    encodeArguments ps vs (slots.add p.passing slot) block
  | _, _, slots, block => return (slots, block)

/-- Whether a number of arguments suits a signature; a callable without parameters also takes a
single absent value. -/
def countFits (s : Signature) (arguments : List Value) : Bool :=
  arguments.length = s.arity || (s.arity = 0 && arguments = [.nil])

/-- The slots before the arguments are encoded: the receiver of a method. -/
def receiverSlots (s : Signature) (name : String) (receiver : Address) : Bridge Slots :=
  if s.isMethod then
    if receiver = 0 then throw (.noReceiver name) else return ⟨[.ofAddress receiver], []⟩
  else return ⟨[], []⟩

/-- The slot that a native call gave, or its failure. -/
def replySlot (reply : NativeReply) : Except Failure Slot :=
  match reply.outcome with
  | .error signal => .error (.fatalSignal signal.name)
  | .ok (.error text) => .error (.callFailed text)
  | .ok (.ok slot) => .ok slot

/-- Warn of out slots whose values are not given to the host. -/
def warnOfOutputs (name : String) (outputs : List Slot) : Program Unit :=
  if outputs.isEmpty then return ()
  else
    warn ("unimplemented: positional out arguments (" ++ toString outputs.length ++ " ignored in "
      ++ name ++ ")")

/-- Call a native function. -/
def invoke (callable : Token) (receiver : Address) (arguments : List Value) : Bridge Value :=
  Bridge.region Value.claims do
    let signature ← Signature.ofCallable callable
    let name ← Descriptor.qualifiedName callable
    if !countFits signature arguments then
      throw (.argumentCount signature.arity arguments.length)
    let start ← receiverSlots signature name receiver
    let (slots, _) ← encodeArguments signature.parameters arguments start []
    let reply : NativeReply ← request (.invoke callable slots.inputs slots.outputs)
    let slot ← replySlot reply
    warnOfOutputs name slots.outputs
    match signature.result with
    | some type => Codec.decode slot type
    | none => return .nil

end Call
end ObjectBridge
