import ObjectBridge.Handle.Access

/-!
# Evaluating handles

A handle is evaluated with arguments.  A callable is called, a list gives the datum with an index, a
type without an instance is constructed or takes over the instance of another handle, and on an
instance the members that the arguments name are written and read.
-/

namespace ObjectBridge
namespace Handle

open Program Descriptor

/-- The values of the arguments of a call. -/
def positional : List Argument → Except Failure (List Value)
  | [] => .ok []
  | .value v :: rest => (positional rest).map (v :: ·)
  | other :: _ => .error (.mismatch "positional argument" other.word)

/-- A handle of another type on the instance of a handle.  It has a reference of its own if either
type is an object type. -/
def cast (info : Token) (source : HandleId) : Program HandleId := do
  let r ← handleRecord source
  let target ← entry info
  let sourceIsObject : Bool ←
    match r.info with
    | some sourceInfo => do
      let e ← entry sourceInfo
      pure (decide (e.kind = .object))
    | none => pure false
  trace [info]
  derived source (some info) r.address (target.kind = .object || sourceIsObject)

/-- An initializer of a construction: the name of a property, its value, and what follows. -/
def initializer : List Argument → Except Failure (Option (String × Value × List Argument))
  | [] => .ok none
  | .keyword name v :: rest => .ok (some (name, v, rest))
  | first :: rest =>
    match first.name? with
    | none => .error (.mismatch "property name" first.word)
    | some name =>
      let wanted := "value for property " ++ name
      match rest with
      | .value v :: others => .ok (some (name, v, others))
      | other :: _ => .error (.mismatch wanted other.word)
      | [] => .error (.mismatch wanted "nothing")

/-- Encode the value of an initializer under the type of its property. -/
def encodeInitial (info : Token) (name : String) (v : Value) (block : Codec.ArgumentBlock) :
    Bridge (Runtime.Initial × Codec.ArgumentBlock) :=
  Bridge.region keepNothing do
    match ← Member.findProperty info name with
    | none => throw (.noMember name)
    | some (property, spelling) =>
      let type ← memberType property spelling
      let (slot, block) ← Codec.encode v type block
      return (⟨spelling, slot⟩, block)

/-- Encode the initializers of a construction, in order.  Every initializer takes at least one
argument, so `limit` need not exceed their number. -/
def encodeInitials (info : Token) :
    Nat → List Argument → Codec.ArgumentBlock → Bridge (List Runtime.Initial)
  | 0, _, _ => return []
  | limit + 1, arguments, block => do
    match ← initializer arguments with
    | none => return []
    | some (name, v, rest) =>
      let (initial, block) ← encodeInitial info name v block
      let others ← encodeInitials info limit rest block
      return initial :: others

/-- Construct an instance of an object type.  A floating instance is sunk, so that the handle owns
its only reference. -/
def constructObject (info : Token) (arguments : List Argument) : Bridge HandleId :=
  Bridge.region claims do
    let initial ← encodeInitials info arguments.length arguments []
    trace [info]
    let e ← entry info
    let name ← qualifiedName info
    let reading (f : RuntimeFailure) : Failure :=
      .constructionFailed (name ++ " (" ++ f.message ++ ")")
    let a ← Bridge.ofRuntime reading (Runtime.construct e.number initial)
    let i ← liveInstance a
    if i.floating then request (.sink a)
    retained (some info) a

/-- Make a record of zeros. -/
def constructRecord (info : Token) : Program HandleId := do
  let e ← entry info
  trace [info]
  request (.openBlock info (max e.size 1))

/-- One access to a member by the arguments of an evaluation, and the arguments that follow. -/
def access (h : HandleId) : List Argument → Bridge (List Argument)
  | [] => return []
  | .keyword name v :: rest => do
    set h name v
    return rest
  | first :: rest =>
    match first.name? with
    | none => throw (.mismatch "member name" first.word)
    | some name =>
      match rest with
      | .output global :: others =>
        Bridge.region keepNothing do
          let v ← get h name
          request (.assignGlobal global v)
          return others
      | _ => throw (.noOutput name)

/-- Access the members that arguments name, in order.  Every access takes at least one argument, so
`limit` need not exceed their number. -/
def accessAll (h : HandleId) : Nat → List Argument → Bridge Unit
  | 0, _ => return ()
  | _, [] => return ()
  | limit + 1, arguments => do
    let rest ← access h arguments
    accessAll h limit rest

/-- The absent value as the only argument. -/
def isLoneNil : List Argument → Bool
  | [.value .nil] => true
  | _ => false

/-- Access the members that arguments name, unless the absent value stands for no arguments. -/
def finish (h : HandleId) (arguments : List Argument) : Bridge Value := do
  if isLoneNil arguments then return .handle h
  accessAll h arguments.length arguments
  return .handle h

/-- Evaluate a handle that is typed by an object, interface or record type. -/
def evalInstance (h : HandleId) (r : HandleRecord) (info : Token) (kind : EntryKind)
    (arguments : List Argument) : Bridge Value := do
  if r.isBound then
    hold (.handle h)
    finish h arguments
  else
    match arguments with
    | .value (.handle source) :: rest => do
      let target ← cast info source
      finish target rest
    | _ =>
      if kind = .object then
        let made ← constructObject info (if isLoneNil arguments then [] else arguments)
        return .handle made
      else if kind.isRecord then
        let made ← constructRecord info
        finish made arguments
      else
        let name ← qualifiedName info
        throw (.notCallable name)

/-- Evaluate a handle with arguments. -/
def eval (h : HandleId) (arguments : List Argument) : Bridge Value :=
  Bridge.region Value.claims do
    let r ← handleRecord h
    let info ← typed r
    let e ← entry info
    if ListCursor.isListType e then ListCursor.nth r.address info arguments
    else if e.kind.isCallable then
      let values ← positional arguments
      Call.invoke info r.address values
    else if e.kind = .object || e.kind = .interface || e.kind.isRecord then
      evalInstance h r info e.kind arguments
    else
      let name ← qualifiedName info
      throw (.notCallable name)

end Handle
end ObjectBridge
