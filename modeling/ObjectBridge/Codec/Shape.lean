import ObjectBridge.Descriptor

/-!
# Shapes of types

Before a value is converted, its declared type is brought to a shape, which says how values of the
type travel in slots.  A type without a shape is unsupported, in both directions alike.
-/

namespace ObjectBridge
namespace Codec

open Program Descriptor

/-- How values of a type travel in slots. -/
inductive Shape where
  /-- There is no value. -/
  | void
  /-- As a truth value. -/
  | boolean
  /-- As a number. -/
  | scalar (s : Scalar)
  /-- As the address of a native string. -/
  | text
  /-- As the address of the first element. -/
  | array (element : Token) (zeroTerminated : Bool) (fixedSize : Option Nat)
  /-- As an integer. -/
  | enumeration (format : IntegerFormat)
  /-- As the address of an instance of an object type. -/
  | object (target : Token)
  /-- As the address of an instance of an interface type. -/
  | interface (target : Token)
  /-- As the address of a record, or of a generic value box. -/
  | record (target : Token) (boxed : Bool)
  /-- As the address of a function. -/
  | callback
  /-- As the address of a list node. -/
  | list
  deriving DecidableEq, Repr

/-- The shape of a type that refers to an entry. -/
def shapeOfTarget (target : Token) : Bridge Shape := do
  let e ← entry target
  if e.kind.isEnumeration then
    match e.storage.integer? with
    | some format => return .enumeration format
    | none => throw (.unsupported ("enum storage " ++ e.storage.name))
  else if e.kind = .object then return .object target
  else if e.kind = .interface then return .interface target
  else if e.kind = .callback then return .callback
  else if e.kind.isRecord then
    let db ← database
    return .record target (db.isA e.number Database.valueBoxNumber)
  else throw (.unsupported ("interface kind " ++ e.kind.name))

/-- The shape of an array type. -/
def shapeOfArray (t : Token) (e : Entry) : Bridge Shape := do
  if e.arrayForm ≠ .plain then throw (.unsupported (e.arrayForm.name ++ " array"))
  match ← part? t 0 with
  | some element => return .array element e.zeroTerminated e.fixedSize?
  | none => throw (.unsupported "array without element type")

/-- The shape of a type. -/
def shape (t : Token) : Bridge Shape := do
  let e ← entry t
  match e.tag with
  | .void => return .void
  | .boolean => return .boolean
  | .utf8 | .filename => return .text
  | .glist | .gslist => return .list
  | .array => shapeOfArray t e
  | .interface =>
    match ← target? t with
    | some target => shapeOfTarget target
    | none => throw (.unsupported "interface without target")
  | other =>
    match other.scalar? with
    | some s => return .scalar s
    | none => throw (.unsupported other.name)

end Codec
end ObjectBridge
