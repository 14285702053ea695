import ObjectBridge.Codec.Shape
import ObjectBridge.Handle.Basic

/-!
# Decoding slots

Decoding turns a slot into a host value under a declared type.  An instance is wrapped in a handle
that is typed after the runtime type of the instance where that is known.
-/

namespace ObjectBridge
namespace Codec

open Program Descriptor

/-- Decode a slot as a number. -/
def decodeScalar (s : Scalar) (slot : Slot) : Value :=
  match s with
  | .integer f => .int (Int64.ofInt (slot.toInteger f))
  | .float => .real slot.toReal32.toReal64
  | .double => .real slot.toReal64

/-- Decode an address as a text. -/
def decodeText (m : Memory) (a : Address) : Value :=
  if a = 0 then .nil else .str (m.text a)

/-- The words of the elements of a native array. -/
def elementWords (m : Memory) (s : Scalar) (a : Address) (count : Nat) : List Nat :=
  (List.range count).map fun i => m.readWord (a + i * s.bytes) s.bytes

/-- Read the elements of a native array. -/
def readElements (m : Memory) (s : Scalar) (a : Address) (count : Nat) : Elements :=
  let words := elementWords m s a count
  match s with
  | .integer f => .long (words.map fun word => Int64.ofInt (f.read word))
  | .float => .double (words.map fun word => (⟨word⟩ : Slot).toReal32.toReal64)
  | .double => .double (words.map fun word => (⟨word⟩ : Slot).toReal64)

/-- Decode an address as an array.  The number of elements is known for a fixed size, and for
strings also where the array ends with a null address; otherwise the address itself is given. -/
def decodeArray (m : Memory) (a : Address) (element : Tag) (zeroTerminated : Bool)
    (fixedSize : Option Nat) : Value :=
  if a = 0 then .nil
  else
    match fixedSize with
    | some count =>
      if element.isString then .array (.string (m.texts a count))
      else
        match element.scalar? with
        | some s => .array (readElements m s a count)
        | none => .pointer a
    | none =>
      if element.isString && zeroTerminated then .array (.string (m.texts a m.extent))
      else .pointer a

/-- Wrap an instance in a handle.  A live instance is typed after its runtime type where that is
registered, anything else as it was declared. -/
def wrapInstance (a : Address) (declared : Token) (retain : Bool) : Program Value :=
  region Value.claims do
    if a = 0 then return .nil
    let s ← store
    let actual? ←
      if s.isLive a then do
        let i ← liveInstance a
        registered? i.number
      else pure none
    match actual? with
    | some actual => trace [declared, actual]
    | none => pure ()
    let info := actual?.getD declared
    let h ← if retain then Handle.retained (some info) a else Handle.borrowed (some info) a
    return .handle h

/-- Wrap a record in a handle.  Only where the type number of the record stands for an object type
is a reference taken. -/
def wrapRecord (a : Address) (declared : Token) : Program Value :=
  region Value.claims do
    if a = 0 then return .nil
    let e ← entry declared
    let info := (← registered? e.number).getD declared
    let infoEntry ← entry info
    let h ←
      if infoEntry.kind = .object then Handle.retained (some info) a
      else Handle.borrowed (some info) a
    return .handle h

/-- Decode a slot in a shape of a type. -/
def decodeShape (slot : Slot) (t : Token) (wanted : Shape) : Program Value := do
  let a := slot.address
  match wanted with
  | .void => return .nil
  | .boolean => return .int (if slot.toBool then 1 else 0)
  | .scalar s => return decodeScalar s slot
  | .enumeration format => return decodeScalar (.integer format) slot
  | .text => do
    let m ← memory
    return decodeText m a
  | .array element zeroTerminated fixedSize => do
    let m ← memory
    let e ← entry element
    return decodeArray m a e.tag zeroTerminated fixedSize
  | .object target => wrapInstance a target true
  | .interface target => do
    let s ← store
    wrapInstance a target (a ≠ 0 && s.isLive a)
  | .record target _ => wrapRecord a target
  | .callback => return if a = 0 then .nil else .pointer a
  | .list => do
    let h ← Handle.borrowed (some t) a
    return .handle h

/-- Decode a slot under a type. -/
def decode (slot : Slot) (t : Token) : Bridge Value :=
  Bridge.region Value.claims do
    let wanted ← shape t
    trace [t]
    decodeShape slot t wanted

end Codec
end ObjectBridge
