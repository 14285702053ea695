import ObjectBridge.Binary.Real
import ObjectBridge.Kind
import ObjectBridge.Text.Redacted

/-!
# Native slots

A slot carries one native argument or result.  It has no tag of its own: an integer of a narrow
format sits in the low bits with zeros above it, a real number is its word, and an address is the
whole slot.  The addresses of storage lie above all numbers of 64 bits, so that no number that a
slot carries is the address of anything that was ever stored.
-/

namespace ObjectBridge

/-- An address of native memory.  Zero is the null address, and below `2 ^ 64` nothing is stored. -/
abbrev Address := Nat

/-- The width and the sign of a native integer. -/
structure IntegerFormat where
  /-- Number of bits. -/
  width : Nat
  /-- Whether the top bit is a sign. -/
  signed : Bool
  deriving DecidableEq, Repr

namespace IntegerFormat

/-- The number of integers of the format. -/
def count (f : IntegerFormat) : Nat :=
  Nat.pow 2 f.width

/-- The low bits of an integer that the format keeps. -/
def wrap (f : IntegerFormat) (n : Int) : Nat :=
  (n % f.count).toNat

/-- The integer that the low bits of a word mean. -/
def read (f : IntegerFormat) (word : Nat) : Int :=
  let low := word % f.count
  if f.signed then Int.bmod low f.count else low

/-- The least integer of the format. -/
def least (f : IntegerFormat) : Int :=
  if f.signed then -(f.count / 2 : Nat) else 0

/-- The greatest integer of the format. -/
def greatest (f : IntegerFormat) : Int :=
  if f.signed then (f.count / 2 : Nat) - 1 else f.count - 1

end IntegerFormat

/-- A numeric type of native code. -/
inductive Scalar where
  /-- An integer. -/
  | integer (format : IntegerFormat)
  /-- A 32-bit real number. -/
  | float
  /-- A 64-bit real number. -/
  | double
  deriving DecidableEq, Repr

/-- The numeric type of a tag, if it has one. -/
def Tag.scalar? : Tag → Option Scalar
  | .int8 => some (.integer ⟨8, true⟩)
  | .uint8 => some (.integer ⟨8, false⟩)
  | .int16 => some (.integer ⟨16, true⟩)
  | .uint16 => some (.integer ⟨16, false⟩)
  | .int32 => some (.integer ⟨32, true⟩)
  | .uint32 => some (.integer ⟨32, false⟩)
  | .int64 => some (.integer ⟨64, true⟩)
  | .uint64 => some (.integer ⟨64, false⟩)
  | .float => some .float
  | .double => some .double
  | _ => none

/-- The integer format of a tag, if it has one. -/
def Tag.integer? (tag : Tag) : Option IntegerFormat :=
  match tag.scalar? with
  | some (.integer format) => some format
  | _ => none

/-- The number of bytes of a numeric type. -/
def Scalar.bytes : Scalar → Nat
  | .integer format => format.width / 8
  | .float => 4
  | .double => 8

/-- One native argument or result. -/
structure Slot where
  /-- A number of 64 bits, or the address of storage above all of them. -/
  word : Nat
  deriving DecidableEq, Repr, Inhabited

namespace Slot

/-- The slot of all zeros, which is also the null address. -/
def zero : Slot := ⟨0⟩

/-- The slot of 64 bits. -/
def ofBits (bits : UInt64) : Slot := ⟨bits.toNat⟩

/-- The slot of a truth value. -/
def ofBool (b : Bool) : Slot := if b then ⟨1⟩ else ⟨0⟩

/-- The slot of an integer in a format. -/
def ofInteger (f : IntegerFormat) (n : Int) : Slot := ⟨f.wrap n⟩

/-- The slot of a 32-bit real number. -/
def ofReal32 (r : Real32) : Slot := ⟨r.bits.toNat⟩

/-- The slot of a 64-bit real number. -/
def ofReal64 (r : Real64) : Slot := ofBits r.bits

/-- The slot of an address. -/
def ofAddress (a : Address) : Slot := ⟨a⟩

/-- The low 64 bits of the slot. -/
def bits (s : Slot) : UInt64 := UInt64.ofNat s.word

/-- The truth value in the low 32 bits. -/
def toBool (s : Slot) : Bool := s.bits.toUInt32 ≠ 0

/-- The integer in the low bits, in a format. -/
def toInteger (f : IntegerFormat) (s : Slot) : Int := f.read s.word

/-- The 32-bit real number in the low bits. -/
def toReal32 (s : Slot) : Real32 := ⟨s.bits.toUInt32⟩

/-- The slot as a 64-bit real number. -/
def toReal64 (s : Slot) : Real64 := ⟨s.bits⟩

/-- The slot as an address. -/
def address (s : Slot) : Address := s.word

/-- Whether the slot is the null address. -/
def isNull (s : Slot) : Bool := s.word = 0

/-- The slot in full, in base sixteen. -/
def render (s : Slot) : String :=
  "ArgumentSlot(0x" ++ Text.paddedHex 16 s.bits.toNat ++ ")"

end Slot

end ObjectBridge
