import ObjectBridge.Descriptor

/-!
# Instances and their properties

The object runtime finds a property of an instance by its exact name in the type of the instance
and in its ancestors.  A native string is copied when it is stored, so the stored slot does not
depend on the storage of the caller.
-/

namespace ObjectBridge
namespace Runtime

open Program

/-- A slot that is kept: the address of a native string becomes that of a copy. -/
def copyString (tag : Tag) (slot : Slot) : Program Slot := do
  if tag.isString && !slot.isNull then
    let m ← memory
    let a ← place (m.stringBytes slot.address ++ [0])
    return .ofAddress a
  else return slot

/-- Store a property that was found on the type of an instance. -/
def storeProperty (a : Address) (property : Token) (name : String) (slot : Slot) :
    Program Unit := do
  let db ← database
  let _ ← liveInstance a
  let kept ← copyString (db.declaredTag property) slot
  request (.storeProperty a name kept)

/-- The failure of a property that the type of an instance lacks. -/
def noProperty (name : String) : RuntimeFailure :=
  .property ("no property named '" ++ name ++ "'")

/-- The property of a name on the type of an instance. -/
def findProperty (a : Address) (name : String) : Runtime Token := do
  let i ← liveInstance a
  let db ← database
  match db.chainMember? i.number .property name with
  | some property => return property
  | none => throw (noProperty name)

/-- The slot of a property that was stored. -/
def storedProperty (a : Address) (name : String) : Program (Option Slot) := do
  let i ← liveInstance a
  return i.properties.lookup name

/-- Read a property of an instance; one that was never stored is zero. -/
def readProperty (a : Address) (name : String) : Runtime Slot := do
  let _ ← findProperty a name
  let stored ← storedProperty a name
  return stored.getD .zero

/-- Write a property of an instance. -/
def writeProperty (a : Address) (name : String) (slot : Slot) : Runtime Unit := do
  let property ← findProperty a name
  storeProperty a property name slot

/-- An initial property of an instance. -/
structure Initial where
  /-- The name of the property. -/
  name : String
  /-- The slot of its value. -/
  slot : Slot
  deriving DecidableEq, Repr

/-- Find each initial property on the type of a new instance. -/
def findInitial (db : Database) (number : TypeNumber) (className : String) :
    List Initial → Except RuntimeFailure (List (Token × Initial))
  | [] => .ok []
  | initial :: rest =>
    match db.chainMember? number .property initial.name with
    | none =>
      .error (.construction
        ("object class '" ++ className ++ "' has no property named '" ++ initial.name ++ "'"))
    | some property => (findInitial db number className rest).map fun found =>
        (property, initial) :: found

/-- Construct an instance of a registered object type.  Nothing is made unless every initial
property is found.  The first reference is a temporary. -/
def construct (number : TypeNumber) (initial : List Initial) : Runtime Address := do
  let db ← database
  match db.registered? number with
  | none => throw (.construction ("RuntimeType(" ++ toString number ++ ") is not registered"))
  | some t =>
    let e ← entry t
    if e.kind ≠ .object then
      throw (.construction ("cannot instantiate " ++ e.kind.name ++ " type " ++ e.shownName))
    let found ← findInitial db number e.shownName initial
    let a : Address ← request (.create number e.startsFloating)
    forEach (fun (property, p) => storeProperty a property p.name p.slot) found
    return a

end Runtime
end ObjectBridge
