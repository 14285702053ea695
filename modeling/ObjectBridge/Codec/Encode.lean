import ObjectBridge.Codec.Shape

/-!
# Encoding host values

Encoding turns a host value into a slot under a declared type.  Strings, arrays and value boxes
need storage of their own; the argument block lists the storage that lives as long as one native
call.  Integers keep their low bits, and real numbers that become integers are held within the
range of the integer first.
-/

namespace ObjectBridge
namespace Codec

open Program

/-- Storage that an argument block holds for one argument. -/
structure Holding where
  /-- The first address and the number of bytes of each piece. -/
  pieces : List (Address × Nat)
  deriving DecidableEq, Repr

/-- The storage of the arguments of one native call, newest first. -/
abbrev ArgumentBlock := List Holding

/-- A number of a host array. -/
inductive Number where
  /-- An integer. -/
  | integer (n : Int)
  /-- A real number. -/
  | real (r : Real64)
  deriving DecidableEq, Repr

/-- The numbers of an array, none for an array of texts. -/
def numbers? : Elements → Option (List Number)
  | .char items => some (items.map fun x => .integer x.toNat)
  | .short items => some (items.map fun x => .integer x.toInt)
  | .int items => some (items.map fun x => .integer x.toInt)
  | .long items => some (items.map fun x => .integer x.toInt)
  | .float items => some (items.map fun x => .real x.toReal64)
  | .double items => some (items.map .real)
  | .string _ => none

/-- The word of a number of a host array as an element of a numeric type. -/
def elementWord (s : Scalar) (n : Number) : Nat :=
  match s, n with
  | .integer f, .integer i => f.wrap i
  | .integer f, .real r => f.wrap (r.datum.clamp f.least f.greatest)
  | .float, .integer i => (Real32.ofInt i).bits.toNat
  | .float, .real r => r.toReal32.bits.toNat
  | .double, .integer i => (Real64.ofInt i).bits.toNat
  | .double, .real r => r.bits.toNat

/-- The bytes of the elements of a native array. -/
def elementBytes (s : Scalar) (items : List Number) : List UInt8 :=
  items.flatMap fun n => Cell.bytesOf s.bytes (elementWord s n)

/-- Encode a value as a number. -/
def encodeScalar (s : Scalar) (v : Value) : Except Failure Slot :=
  match s with
  | .integer f =>
    match v.toInt? with
    | some n => .ok (.ofInteger f n.toInt)
    | none => .error (.mismatch "integer" v.typeName)
  | .float =>
    match v.toReal? with
    | some r => .ok (.ofReal32 r.toReal32)
    | none => .error (.mismatch "real" v.typeName)
  | .double =>
    match v.toReal? with
    | some r => .ok (.ofReal64 r)
    | none => .error (.mismatch "real" v.typeName)

/-- Whether a value is true: numbers other than zero, texts and arrays with content, addresses
other than null, handles with an instance, and namespaces. -/
def truthy (s : Store) : Value → Bool
  | .nil => false
  | .int n => n ≠ 0
  | .real r => !r.isZero
  | .str text => text ≠ ""
  | .pointer a => a ≠ 0
  | .array elements => !elements.isEmpty
  | .handle h => (s.handle h).isBound
  | .library _ _ => true

/-- The address that a value stands for. -/
def addressOf (s : Store) (v : Value) : Except Failure Address :=
  match v with
  | .nil => .ok 0
  | .handle h => .ok (s.handle h).address
  | .pointer a => .ok a
  | other => .error (.mismatch "handle, pointer or nil" other.typeName)

/-- The bytes of a native string; a text with a zero character has none. -/
def stringBytes (text : String) : Except Failure (List UInt8) :=
  if text.toList.contains '\x00' then
    .error (.mismatch "string without NUL bytes" "string with NUL byte")
  else .ok (Text.encode text ++ [0])

/-- Hold a native string. -/
def holdText (text : String) (block : ArgumentBlock) : Bridge (Slot × ArgumentBlock) := do
  let bytes ← stringBytes text
  let a ← place bytes
  return (.ofAddress a, ⟨[(a, bytes.length)]⟩ :: block)

/-- Store some strings, each in a place of its own. -/
def placeAll : List (List UInt8) → Program (List (Address × Nat))
  | [] => return []
  | bytes :: rest => do
    let a ← place bytes
    let others ← placeAll rest
    return (a, bytes.length) :: others

/-- Hold a vector of native strings, which ends with the null address. -/
def holdTexts (texts : List String) (block : ArgumentBlock) : Bridge (Slot × ArgumentBlock) := do
  let strings ← texts.mapM fun text => (stringBytes text : Except Failure (List UInt8))
  let pieces ← placeAll strings
  let vector := pieces.flatMap (fun piece => Cell.ofAddress piece.1) ++ Cell.ofAddress 0
  let a ← placeCells vector
  return (.ofAddress a, ⟨(a, vector.length) :: pieces⟩ :: block)

/-- Hold a native array of numbers.  An array without elements has no storage, and its address is
only aligned. -/
def holdNumbers (s : Scalar) (items : List Number) (block : ArgumentBlock) :
    Bridge (Slot × ArgumentBlock) := do
  let bytes := elementBytes s items
  if bytes.isEmpty then return (.ofAddress s.bytes, ⟨[]⟩ :: block)
  let a ← place bytes
  return (.ofAddress a, ⟨[(a, bytes.length)]⟩ :: block)

/-- Hand bytes over in storage that the callee frees. -/
def handOver (items : List Number) (block : ArgumentBlock) : Bridge (Slot × ArgumentBlock) := do
  let a ← place (elementBytes (.integer ⟨8, false⟩) items)
  return (.ofAddress a, block)

/-- Encode an array under the type of its elements. -/
def encodeElements (elements : Elements) (element : Tag) (block : ArgumentBlock) :
    Bridge (Slot × ArgumentBlock) :=
  if element.isString then
    match elements with
    | .string texts => holdTexts texts block
    | other => throw (.mismatch "string array" (other.elementName ++ " array"))
  else
    match element.scalar? with
    | some s =>
      match numbers? elements with
      | some items =>
        if element = .uint8 then handOver items block else holdNumbers s items block
      | none => throw (.mismatch "numeric array" "string array")
    | none =>
      if element = .void then throw (.mismatch "nil" "array")
      else throw (.unsupported ("array of " ++ element.name))

/-- Encode a value as an array. -/
def encodeArray (v : Value) (element : Token) (block : ArgumentBlock) :
    Bridge (Slot × ArgumentBlock) := do
  let e ← entry element
  match v with
  | .nil => return (.zero, block)
  | .pointer a => return (.ofAddress a, block)
  | .str text => encodeElements (.string [text]) e.tag block
  | .array elements => encodeElements elements e.tag block
  | other => throw (.mismatch "array, string, pointer or nil" other.typeName)

/-- Encode a value as a generic value box, which names the runtime type of its instance. -/
def encodeBox (v : Value) (block : ArgumentBlock) : Bridge (Slot × ArgumentBlock) := do
  if v.isNil then return (.zero, block)
  let s ← store
  let a ← addressOf s v
  if a = 0 || !s.isLive a then throw (.mismatch "object instance" v.typeName)
  let i ← liveInstance a
  let cells := Cell.ofNumber 8 i.number ++ Cell.ofAddress a ++ Cell.ofNumber 8 0
  let box ← placeCells cells
  return (.ofAddress box, ⟨[(box, cells.length)]⟩ :: block)

/-- Encode a value in a shape. -/
def encodeShape (v : Value) (wanted : Shape) (block : ArgumentBlock) :
    Bridge (Slot × ArgumentBlock) := do
  match wanted with
  | .void => if v.isNil then return (.zero, block) else throw (.mismatch "nil" v.typeName)
  | .boolean => do
    let s ← store
    return (.ofBool (truthy s v), block)
  | .scalar s => do
    let slot ← encodeScalar s v
    return (slot, block)
  | .enumeration format => do
    let slot ← encodeScalar (.integer format) v
    return (slot, block)
  | .text =>
    match v with
    | .nil => return (.zero, block)
    | .str text => holdText text block
    | other => throw (.mismatch "string" other.typeName)
  | .array element _ _ => encodeArray v element block
  | .record _ true => encodeBox v block
  | .object _ | .interface _ | .record _ false | .callback | .list => do
    let s ← store
    let a ← addressOf s v
    return (.ofAddress a, block)

/-- Encode a value under a type. -/
def encode (v : Value) (t : Token) (block : ArgumentBlock) : Bridge (Slot × ArgumentBlock) :=
  Bridge.region keepNothing do
    let wanted ← shape t
    trace [t]
    encodeShape v wanted block

end Codec
end ObjectBridge
