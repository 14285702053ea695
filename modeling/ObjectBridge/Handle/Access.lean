import ObjectBridge.ListCursor
import ObjectBridge.Resolve
import ObjectBridge.Runtime.Field
import ObjectBridge.Runtime.Property
import ObjectBridge.Signature

/-!
# Members of handles

A member is extracted by its resolved meaning: a method becomes a handle on the same instance, a
property or field is read.  Getting and setting a member only look for properties and fields, so a
method of the same name does not hide them.
-/

namespace ObjectBridge
namespace Handle

open Program Descriptor

/-- The entry that types a handle. -/
def typed (r : HandleRecord) : Bridge Token :=
  match r.info with
  | some info => return info
  | none => throw .untyped

/-- The instance of a handle, for a member that needs one. -/
def receiver (r : HandleRecord) (member : String) : Bridge Address :=
  match r.attachment with
  | some attachment => return attachment.address
  | none => throw (.noReceiver member)

/-- The declared type of a property or field. -/
def memberType (member : Token) (name : String) : Bridge Token := do
  match ← declared? member with
  | some type => return type
  | none => throw (.unsupported (name ++ " has no type"))

/-- Read a property. -/
def readProperty (r : HandleRecord) (property : Token) (name : String) : Bridge Value :=
  Bridge.region Value.claims do
    let a ← receiver r name
    let e ← entry property
    if !e.propertyFlags.contains PropertyFlag.readable then throw (.notReadable name)
    let type ← memberType property name
    let slot ← Bridge.ofRuntime .runtime (Runtime.readProperty a name)
    Codec.decode slot type

/-- Write a property. -/
def writeProperty (r : HandleRecord) (property : Token) (name : String) (v : Value) :
    Bridge Unit :=
  Bridge.region keepNothing do
    let a ← receiver r name
    let e ← entry property
    if !e.propertyFlags.contains PropertyFlag.writable then throw (.notWritable name)
    let type ← memberType property name
    let (slot, _) ← Codec.encode v type []
    Bridge.ofRuntime .runtime (Runtime.writeProperty a name slot)

/-- Read a field. -/
def readField (r : HandleRecord) (field : Token) (name : String) : Bridge Value :=
  Bridge.region Value.claims do
    let a ← receiver r name
    let type ← memberType field name
    let reading (f : RuntimeFailure) : Failure := .fieldAccess ("get " ++ name ++ ": " ++ f.message)
    let slot ← Bridge.ofRuntime reading (Runtime.readField field a)
    Codec.decode slot type

/-- Write a field. -/
def writeField (r : HandleRecord) (field : Token) (name : String) (v : Value) : Bridge Unit :=
  Bridge.region keepNothing do
    let a ← receiver r name
    let type ← memberType field name
    let (slot, _) ← Codec.encode v type []
    let reading (f : RuntimeFailure) : Failure := .fieldAccess ("set " ++ name ++ ": " ++ f.message)
    Bridge.ofRuntime reading (Runtime.writeField field a slot)

/-- A handle on a method.  A method that takes an instance keeps the instance of the handle that it
was taken from. -/
def bindMethod (h : HandleId) (r : HandleRecord) (method : Token) : Program HandleId := do
  let e ← entry method
  if !e.callableFlags.contains CallableFlag.method || !r.isBound then unbound method
  else
    let retain : Bool ←
      match r.info with
      | some info => do
        let type ← entry info
        pure (decide (type.kind = .object))
      | none => pure false
    derived h (some method) r.address retain

/-- Extract a member of a handle. -/
def extract (h : HandleId) (name : String) : Bridge Value :=
  Bridge.region Value.claims do
    let r ← handleRecord h
    let info ← typed r
    let e ← entry info
    if ListCursor.isListType e then ListCursor.extract r.address info name
    else
      match ← Member.resolve info name with
      | .enumValue number => return .int number
      | .method method => do
        let bound ← bindMethod h r method
        return .handle bound
      | .property property spelling => readProperty r property spelling
      | .field field spelling => readField r field spelling
      | .signal signal => do
        let bare ← unbound signal
        return .handle bare

/-- The value of a property or field of a handle. -/
def get (h : HandleId) (name : String) : Bridge Value :=
  Bridge.region Value.claims do
    let r ← handleRecord h
    let info ← typed r
    match ← Member.findProperty info name with
    | some (property, spelling) => readProperty r property spelling
    | none =>
      match ← Member.findField info name with
      | some (field, spelling) => readField r field spelling
      | none => throw (.noMember name)

/-- Set a property or field of a handle. -/
def set (h : HandleId) (name : String) (v : Value) : Bridge Unit :=
  Bridge.region keepNothing do
    let r ← handleRecord h
    let info ← typed r
    match ← Member.findProperty info name with
    | some (property, spelling) => writeProperty r property spelling v
    | none =>
      match ← Member.findField info name with
      | some (field, spelling) => writeField r field spelling v
      | none => throw (.noMember name)

end Handle
end ObjectBridge
