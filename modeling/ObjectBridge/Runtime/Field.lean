import ObjectBridge.Descriptor

/-!
# Fields of instances

A field is a run of bytes at an offset in its instance, as wide as its declared type.  A native
string is copied when it is stored.
-/

namespace ObjectBridge
namespace Runtime

open Program

/-- Read a field of an instance. -/
def readField (field : Token) (a : Address) : Runtime Slot := do
  let e ← entry field
  if a = 0 then throw (.field ("cannot read field " ++ e.shownName ++ " of a null instance"))
  let db ← database
  let m ← memory
  return m.readSlot (a + e.offset) (db.declaredTag field).fieldWidth

/-- The slot that a field stores: the address of a native string becomes that of a copy. -/
def fieldSlot (tag : Tag) (slot : Slot) : Program Slot := do
  if tag.isString && !slot.isNull then
    let m ← memory
    let a ← placeText (m.text slot.address)
    return .ofAddress a
  else return slot

/-- Write a field of an instance. -/
def writeField (field : Token) (a : Address) (slot : Slot) : Runtime Unit := do
  let e ← entry field
  if a = 0 then throw (.field ("cannot write field " ++ e.shownName ++ " of a null instance"))
  let db ← database
  let tag := db.declaredTag field
  let kept ← fieldSlot tag slot
  request (.write (a + e.offset) (Cell.ofSlot tag.fieldWidth kept))

end Runtime
end ObjectBridge
