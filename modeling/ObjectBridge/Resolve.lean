import ObjectBridge.Descriptor

/-!
# Resolving member names

A name is resolved against a type in a fixed order: a value of an enumeration; else a method, then
a property, then a field, then a signal with the word for signals in front.  Methods and signals
are also found in the ancestors of an object type; properties and fields are found under their own
spelling or with hyphens in place of underscores.
-/

namespace ObjectBridge

/-- What a name means on a type. -/
inductive Member where
  /-- A value of an enumeration. -/
  | enumValue (number : Int64)
  /-- A method. -/
  | method (t : Token)
  /-- A property, with the spelling under which it was found. -/
  | property (t : Token) (name : String)
  /-- A field, with the spelling under which it was found. -/
  | field (t : Token) (name : String)
  /-- A signal. -/
  | signal (t : Token)
  deriving DecidableEq, Repr

namespace Member

open Program Descriptor

/-- The claims of a member. -/
def claims : Member → List Claim
  | enumValue _ => []
  | method t | property t _ | field t _ | signal t => [.entry t]

/-- A name with hyphens in place of underscores, if it has underscores. -/
def hyphenate? (name : String) : Option String :=
  if name.toList.contains '_' then
    some (String.ofList (name.toList.map fun c => if c = '_' then '-' else c))
  else none

/-- The word before the name of a signal. -/
def signalMark : List Char := "signal_".toList

/-- The name of a signal after the word for signals. -/
def signalName? (name : String) : Option String :=
  if signalMark.isPrefixOf name.toList then
    some (String.ofList (name.toList.drop signalMark.length))
  else none

/-- The number of a value of an enumeration. -/
def findEnumValue (t : Token) (name : String) : Program (Option Int64) :=
  region keepNothing do
    match ← member? .value name t with
    | some m => do
      let e ← entry m
      return some e.enumValue
    | none => return none

/-- A method, for an object type also of its ancestors. -/
def findMethod (t : Token) (name : String) : Program (Option Token) := do
  let e ← entry t
  if e.kind = .object then walk Descriptor.claims (member? .method name) t
  else member? .method name t

/-- A signal of a type or of its ancestors. -/
def findSignal (t : Token) (name : String) : Program (Option Token) :=
  walk Descriptor.claims (member? .signal name) t

/-- A member under its own spelling, or else with hyphens in place of underscores. -/
def findEither (group : MemberGroup) (t : Token) (name : String) :
    Program (Option (Token × String)) := do
  match ← member? group name t with
  | some found => return some (found, name)
  | none =>
    match hyphenate? name with
    | none => return none
    | some hyphenated =>
      match ← member? group hyphenated t with
      | some found => return some (found, hyphenated)
      | none => return none

/-- A property of an object or interface type. -/
def findProperty (t : Token) (name : String) : Program (Option (Token × String)) := do
  let e ← entry t
  if e.kind = .object || e.kind = .interface then findEither .property t name else return none

/-- A field of an object or record type. -/
def findField (t : Token) (name : String) : Program (Option (Token × String)) := do
  let e ← entry t
  if e.kind = .object || e.kind.isRecord then findEither .field t name else return none

/-- What a name means on a type that is not an enumeration, if it is no signal. -/
def findPlain (kind : EntryKind) (t : Token) (name : String) : Program (Option Member) := do
  let method ←
    if kind = .object || kind = .interface || kind.isRecord then findMethod t name
    else pure none
  match method with
  | some found => return some (.method found)
  | none =>
    match ← findProperty t name with
    | some (found, spelling) => return some (.property found spelling)
    | none =>
      match ← findField t name with
      | some (found, spelling) => return some (.field found spelling)
      | none => return none

/-- What a name means on a type. -/
def resolve (t : Token) (name : String) : Bridge Member :=
  Bridge.region claims do
    let e ← entry t
    trace [t]
    if e.kind.isEnumeration then
      match ← findEnumValue t name with
      | some number => return .enumValue number
      | none => throw (.noEnumValue name)
    else
      match ← findPlain e.kind t name with
      | some found => return found
      | none =>
        if e.kind = .object then
          match signalName? name with
          | some wanted =>
            match ← findSignal t wanted with
            | some found => return .signal found
            | none => throw (.signalNotFound wanted)
          | none => throw (.noMember name)
        else throw (.noMember name)

end Member
end ObjectBridge
