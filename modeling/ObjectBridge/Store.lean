import ObjectBridge.Script
import ObjectBridge.Table
import ObjectBridge.Tally

/-!
# The store of counted things

Handles, instances, connections and entries of the database are shared, and each is kept for as
long as something claims it.  A claim is one unit of a count.  Claims are held by the variables and
globals of the session, by the records of handles and connections, and, while a program runs, by
the list of its temporaries.
-/

namespace ObjectBridge

/-- The number of a connection record. -/
abbrev ClosureId := Nat

/-- One unit of the count of a shared thing. -/
inductive Claim where
  /-- A reference to an entry of the database. -/
  | entry (t : Token)
  /-- A share of a handle. -/
  | handle (h : HandleId)
  /-- A reference to an instance. -/
  | reference (a : Address)
  /-- A share of a connection record. -/
  | closure (c : ClosureId)
  /-- A block of memory that the bridge allocated. -/
  | block (a : Address)
  deriving DecidableEq, Repr

/-- What a handle owns of its instance. -/
inductive Ownership where
  /-- A reference. -/
  | retained
  /-- Nothing. -/
  | borrowed
  /-- The block of memory itself. -/
  | block
  deriving DecidableEq, Repr

/-- The name of a form of ownership. -/
def Ownership.name : Ownership → String
  | retained => "Retained"
  | borrowed => "Borrowed"
  | block => "OwnedBlock"

/-- The instance of a handle. -/
structure Attachment where
  /-- The address, which is not null. -/
  address : Address
  /-- What the handle owns of it. -/
  ownership : Ownership
  deriving DecidableEq, Repr

/-- What a handle stands for. -/
structure HandleRecord where
  /-- The entry that types the handle. -/
  info : Option Token := none
  /-- The instance. -/
  attachment : Option Attachment := none
  /-- A handle that must outlive this one. -/
  keeper : Option HandleId := none
  /-- The number of shares. -/
  shares : Nat := 1
  deriving DecidableEq, Repr, Inhabited

/-- The connection of a host function to a signal. -/
structure Relay where
  /-- The signal. -/
  signal : Token
  /-- The type of the handle through which the connection was made. -/
  emitterType : Token
  /-- The host function. -/
  target : Script.Target
  /-- The value that is passed last. -/
  userData : Option Value
  /-- The types of the arguments of the signal. -/
  argumentTypes : List Token
  /-- Whether the host function decides a truth value. -/
  answersTruth : Bool
  deriving DecidableEq, Repr

/-- How a connection answers an emission. -/
inductive Reaction where
  /-- Always with the same slot. -/
  | fixed (reply : Slot)
  /-- By calling a host function. -/
  | relay (relay : Relay)
  deriving DecidableEq, Repr

/-- A connection record. -/
structure Closure where
  /-- How the connection answers. -/
  reaction : Reaction
  /-- The number of shares. -/
  shares : Nat := 1
  deriving DecidableEq, Repr

/-- A connection of an instance. -/
structure Connection where
  /-- The number given out when the connection was made. -/
  id : Nat
  /-- The name of the signal. -/
  signal : String
  /-- The connection record. -/
  closure : ClosureId
  deriving DecidableEq, Repr

/-- A live instance of the object runtime. -/
structure Instance where
  /-- The type number. -/
  number : TypeNumber
  /-- The number of references. -/
  references : Nat := 1
  /-- Whether the first reference is still floating. -/
  floating : Bool := false
  /-- The stored properties. -/
  properties : List (String × Slot) := []
  /-- The connections, in the order in which they were made. -/
  connections : List Connection := []
  deriving DecidableEq, Repr, Inhabited

/-- Everything that is counted, and everything that holds claims. -/
structure Store where
  /-- The references to entries that were taken and not given back. -/
  ledger : Tally := {}
  /-- The live instances, by address. -/
  instances : Table Instance := {}
  /-- The live handles. -/
  handles : Table HandleRecord := {}
  /-- The live connection records. -/
  closures : Table Closure := {}
  /-- The blocks that the bridge allocated and did not free. -/
  blocks : List Address := []
  /-- The number of instances created so far. -/
  created : Nat := 0
  /-- The number of instances finalized so far. -/
  finalized : Nat := 0
  /-- The number of the next handle. -/
  nextHandle : HandleId := 1
  /-- The number of the next connection record. -/
  nextClosure : ClosureId := 1
  /-- The number of the next connection. -/
  nextConnection : Nat := 1
  /-- The references to instances that direct calls of the runtime took and did not give back. -/
  instanceBalance : Tally := {}
  /-- The references to entries that direct queries took and did not give back. -/
  entryBalance : Tally := {}
  /-- The variables, oldest binding first. -/
  bindings : List (String × Value) := []
  /-- The globals of the host. -/
  globals : List (String × Value) := []
  /-- The temporaries of the running programs, newest first. -/
  held : List Claim := []
  deriving DecidableEq, Repr, Inhabited

/-- The claims of a value. -/
def Value.claims : Value → List Claim
  | .handle h => [.handle h]
  | _ => []

/-- The claims of an optional entry. -/
def entryClaims : Option Token → List Claim
  | some t => [.entry t]
  | none => []

namespace HandleRecord

/-- The claims of a handle, in the order in which they are given back. -/
def claims (r : HandleRecord) : List Claim :=
  (match r.attachment with
   | some ⟨a, .retained⟩ => [.reference a]
   | some ⟨a, .block⟩ => [.block a]
   | _ => [])
    ++ entryClaims r.info
    ++ (match r.keeper with
        | some k => [.handle k]
        | none => [])

/-- The address of the instance, null without one. -/
def address (r : HandleRecord) : Address :=
  match r.attachment with
  | some attachment => attachment.address
  | none => 0

/-- Whether there is an instance. -/
def isBound (r : HandleRecord) : Bool := r.attachment.isSome

end HandleRecord

/-- The claims of a connection record, in the order in which they are given back. -/
def Reaction.claims : Reaction → List Claim
  | .fixed _ => []
  | .relay r =>
    [.entry r.signal, .entry r.emitterType]
      ++ (match r.userData with
          | some v => v.claims
          | none => [])
      ++ r.argumentTypes.map .entry

/-- The claims of an instance. -/
def Instance.claims (i : Instance) : List Claim :=
  i.connections.map fun c => .closure c.closure

namespace Store

/-- The record of a handle; a number that is no handle has an empty record. -/
def handle (s : Store) (h : HandleId) : HandleRecord := (s.handles.get? h).getD {}

/-- The number of live instances. -/
def live (s : Store) : Nat := s.instances.size

/-- Whether an address is that of a live instance. -/
def isLive (s : Store) (a : Address) : Bool := s.instances.contains a

/-- The number of references of a live instance, zero for other addresses. -/
def references (s : Store) (a : Address) : Nat :=
  match s.instances.get? a with
  | some i => i.references
  | none => 0

/-- Add one unit to the count of a thing.  There is nothing to add where the thing is not live. -/
def claim (s : Store) : Claim → Store
  | .entry t => { s with ledger := s.ledger.take t }
  | .handle h =>
    match s.handles.get? h with
    | some r => { s with handles := s.handles.set h { r with shares := r.shares + 1 } }
    | none => s
  | .reference a =>
    match s.instances.get? a with
    | some i => { s with instances := s.instances.set a { i with references := i.references + 1 } }
    | none => s
  | .closure c =>
    match s.closures.get? c with
    | some r => { s with closures := s.closures.set c { r with shares := r.shares + 1 } }
    | none => s
  | .block _ => s

/-- Add one unit to the count of each of some things. -/
def claimAll (s : Store) (claims : List Claim) : Store := claims.foldl claim s

end Store

end ObjectBridge
