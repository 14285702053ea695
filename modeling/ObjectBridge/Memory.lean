import ObjectBridge.Slot
import ObjectBridge.Text.Utf8

/-!
# Native memory

Memory is the list of the writes made to it, newest first: a cell is what the newest write that
covers its address left there, and a zero byte if there is none.  New storage always starts above
all storage reserved before, so an address is never used twice.

The address of storage is no number of 64 bits, and eight bytes cannot hold it.  A cell therefore is
either a byte or one of the eight parts of a stored address, and only all eight parts, read together
and in order, give the address back.
-/

namespace ObjectBridge

/-- What lies at one address. -/
inductive Cell where
  /-- A byte. -/
  | byte (b : UInt8)
  /-- A part of a stored address, the lowest with index zero. -/
  | part (a : Address) (index : Nat)
  deriving DecidableEq, Repr

namespace Cell

/-- The cell as a byte; a part of an address is read as a byte of its low 64 bits. -/
def value : Cell → UInt8
  | byte b => b
  | part a index => UInt8.ofNat (a / Nat.pow 256 index)

/-- The cells of bytes. -/
def ofBytes (bytes : List UInt8) : List Cell := bytes.map byte

/-- The lowest bytes of an integer, the lowest first. -/
def bytesOf : Nat → Nat → List UInt8
  | 0, _ => []
  | width + 1, word => UInt8.ofNat word :: bytesOf width (word / 256)

/-- The cells of the low bytes of a word. -/
def ofNumber (width word : Nat) : List Cell := ofBytes (bytesOf width word)

/-- The cells of an address, or of a number of 64 bits. -/
def ofAddress (a : Address) : List Cell :=
  if a < UInt64.size then ofNumber 8 a else (List.range 8).map (part a)

/-- The cells of a slot that is stored in some bytes. -/
def ofSlot (width : Nat) (slot : Slot) : List Cell :=
  if width = 8 then ofAddress slot.word else ofNumber width slot.word

end Cell

/-- One write: cells stored one after the other from an address on. -/
structure Write where
  /-- The address of the first cell. -/
  start : Address
  /-- The cells. -/
  cells : List Cell
  deriving DecidableEq, Repr

/-- The cell that a write leaves at an address, if it covers it. -/
def Write.cell? (w : Write) (a : Address) : Option Cell :=
  if w.start ≤ a then w.cells[a - w.start]? else none

/-- Native memory. -/
structure Memory where
  /-- The writes, newest first. -/
  writes : List Write := []
  /-- The least address that is not yet reserved. -/
  next : Address := UInt64.size + 4096
  deriving DecidableEq, Repr, Inhabited

namespace Memory

/-- The cell at an address. -/
def cell (m : Memory) (a : Address) : Cell :=
  (m.writes.findSome? fun w => w.cell? a).getD (.byte 0)

/-- The byte at an address. -/
def byte (m : Memory) (a : Address) : UInt8 := (m.cell a).value

/-- The bytes from an address on. -/
def read (m : Memory) (a : Address) (count : Nat) : List UInt8 :=
  (List.range count).map fun i => m.byte (a + i)

/-- Store cells from an address on. -/
def write (m : Memory) (a : Address) (cells : List Cell) : Memory :=
  { m with writes := ⟨a, cells⟩ :: m.writes }

/-- The integer that bytes stand for, the lowest first. -/
def wordOf : List UInt8 → Nat
  | [] => 0
  | b :: rest => b.toNat + 256 * wordOf rest

/-- The integer in some bytes of memory, the lowest first. -/
def readWord (m : Memory) (a : Address) (width : Nat) : Nat :=
  wordOf (m.read a width)

/-- The address whose parts lie in the eight cells from an address on, if they do. -/
def storedAddress? (m : Memory) (a : Address) : Option Address :=
  match m.cell a with
  | .byte _ => none
  | .part s _ => if (List.range 8).all fun i => m.cell (a + i) = .part s i then some s else none

/-- The address or the number of 64 bits that is stored at an address. -/
def readAddress (m : Memory) (a : Address) : Address :=
  (m.storedAddress? a).getD (m.readWord a 8)

/-- The slot that is stored in some bytes. -/
def readSlot (m : Memory) (a : Address) (width : Nat) : Slot :=
  if width = 8 then .ofAddress (m.readAddress a) else ⟨m.readWord a width⟩

/-- Reserve storage for some cells.  The next storage lies far above it, so that no address in or
near one storage is an address of another. -/
def reserve (m : Memory) (size : Nat) : Address × Memory :=
  (m.next, { m with next := m.next + UInt64.size + 16 * (size / 16 + 1) })

/-- Reserve storage and store cells in it, in room for at least `size` of them. -/
def place (m : Memory) (cells : List Cell) (size : Nat) : Address × Memory :=
  let (a, m) := m.reserve (max size cells.length)
  (a, m.write a cells)

/-- The number of cells that were ever written.  Everything that ends at the first zero byte has
ended after so many bytes. -/
def extent (m : Memory) : Nat :=
  m.writes.foldr (fun w total => w.cells.length + total) 0

/-- The bytes from an address up to the first zero byte, at most `limit` of them. -/
def untilZero (m : Memory) (a : Address) : Nat → List UInt8
  | 0 => []
  | limit + 1 =>
    let b := m.byte a
    if b = 0 then [] else b :: m.untilZero (a + 1) limit

/-- The bytes of the native string at an address. -/
def stringBytes (m : Memory) (a : Address) : List UInt8 :=
  m.untilZero a m.extent

/-- The text of the native string at an address. -/
def text (m : Memory) (a : Address) : String :=
  Text.decode (m.stringBytes a)

/-- The texts of a vector of native strings, which ends with a null address or after `limit`
strings. -/
def texts (m : Memory) (a : Address) : Nat → List String
  | 0 => []
  | limit + 1 =>
    let s := m.readAddress a
    if s = 0 then [] else m.text s :: m.texts (a + 8) limit

end Memory

end ObjectBridge
