import ObjectBridge.Binary.Layout

/-!
# Real numbers as words

A real number of the host or of a native slot is the word that represents it.  Two reals are equal
as data when their words are; equality as numbers is `same`.
-/

namespace ObjectBridge

/-- A 64-bit real number. -/
structure Real64 where
  /-- The word of the number. -/
  bits : UInt64
  deriving DecidableEq, Repr, Inhabited

/-- A 32-bit real number. -/
structure Real32 where
  /-- The word of the number. -/
  bits : UInt32
  deriving DecidableEq, Repr, Inhabited

namespace Real64

/-- The meaning of a real number. -/
def datum (r : Real64) : Binary.Datum :=
  Binary.Layout.double.read r.bits.toNat

/-- The real number of a word. -/
def ofWord (word : Nat) : Real64 :=
  ⟨UInt64.ofNat word⟩

/-- The real number nearest to an integer. -/
def ofInt (n : Int) : Real64 :=
  ofWord (Binary.Layout.double.ofInt n)

/-- Equality as numbers. -/
def same (a b : Real64) : Bool :=
  Binary.Layout.double.equal a.bits.toNat b.bits.toNat

/-- Whether the number is zero, of either sign. -/
def isZero (r : Real64) : Bool :=
  r.datum.isZero

/-- Whether the word is no number. -/
def isInvalid (r : Real64) : Bool :=
  r.datum.isInvalid

/-- The integer part, held within 64 signed bits. -/
def toInt64 (r : Real64) : Int64 :=
  Int64.ofInt (r.datum.clamp Int64.minValue.toInt Int64.maxValue.toInt)

/-- The nearest 32-bit real number. -/
def toReal32 (r : Real64) : Real32 :=
  ⟨UInt32.ofNat (Binary.Layout.single.convert Binary.Layout.double r.bits.toNat)⟩

/-- The quotient of two real numbers. -/
def quotient (a b : Real64) : Real64 :=
  ofWord (Binary.Layout.double.quotient a.bits.toNat b.bits.toNat)

end Real64

namespace Real32

/-- The meaning of a real number. -/
def datum (r : Real32) : Binary.Datum :=
  Binary.Layout.single.read r.bits.toNat

/-- The real number nearest to an integer. -/
def ofInt (n : Int) : Real32 :=
  ⟨UInt32.ofNat (Binary.Layout.single.ofInt n)⟩

/-- Equality as numbers. -/
def same (a b : Real32) : Bool :=
  Binary.Layout.single.equal a.bits.toNat b.bits.toNat

/-- Whether the word is no number. -/
def isInvalid (r : Real32) : Bool :=
  r.datum.isInvalid

/-- The same number in 64 bits. -/
def toReal64 (r : Real32) : Real64 :=
  Real64.ofWord (Binary.Layout.double.convert Binary.Layout.single r.bits.toNat)

end Real32

end ObjectBridge
