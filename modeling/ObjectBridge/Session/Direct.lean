import ObjectBridge.Session.Show
import ObjectBridge.Signal

/-!
# Direct calls of the object runtime

References that a session takes and gives back by direct calls are its own: no handle stands for
them, and the balance of each instance records them.
-/

namespace ObjectBridge
namespace Session

open Program Script

/-- The initial properties that terms write. -/
def initialOf : List (String × SlotTerm) → Program (List Runtime.Initial)
  | [] => return []
  | (name, term) :: rest => do
    let slot ← slotOf term
    let others ← initialOf rest
    return ⟨name, slot⟩ :: others

/-- Construct an instance whose reference is held by the session itself. -/
def constructDirect (number : TypeNumber) (initial : List Runtime.Initial) : Bridge Address :=
  Bridge.region keepNothing do
    let a ← Bridge.ofRuntime .runtime (Runtime.construct number initial)
    request (.takeDirect a)
    return a

/-- Answer a direct call of the object runtime. -/
def callRuntime (call : RuntimeCall) : Bridge Report := do
  match call with
  | .reference label => do
    let a ← addressOf label
    request (.takeDirect a)
    let i ← liveInstance a
    return .nat i.references
  | .unreference label => do
    let a ← addressOf label
    request (.giveBackDirect a)
    let s ← store
    return .record [("alive", .bool (s.isLive a))]
  | .references label => do
    let a ← addressOf label
    let i ← liveInstance a
    return .nat i.references
  | .isLive label => do
    let a ← addressOf label
    let s ← store
    return .bool (s.isLive a)
  | .isFloating label => do
    let a ← addressOf label
    let i ← liveInstance a
    return .bool i.floating
  | .sink label => do
    let a ← addressOf label
    request (.sinkDirect a)
    let i ← liveInstance a
    return .list [.bool i.floating, .nat i.references]
  | .numberOf label => do
    let a ← addressOf label
    let i ← liveInstance a
    return .nat i.number
  | .typeName number => do
    let db ← database
    return .option .text (db.typeName? number)
  | .isA number ancestor => do
    let db ← database
    return .bool (db.isA number ancestor)
  | .construct number initial label => do
    let properties ← initialOf initial
    let a ← constructDirect number properties
    match label with
    | some name => request (.label name a)
    | none => pure ()
    let i ← liveInstance a
    return .list [.bool i.floating, .nat i.references, .nat i.number]
  | .readProperty label name view => do
    let a ← addressOf label
    let slot ← Bridge.ofRuntime .runtime (Runtime.readProperty a name)
    showSlot view slot
  | .writeProperty label name term => do
    let a ← addressOf label
    let slot ← slotOf term
    Bridge.ofRuntime .runtime (Runtime.writeProperty a name slot)
    return .none
  | .storedProperty label name view => do
    let a ← addressOf label
    match ← Runtime.storedProperty a name with
    | some slot => do
      let shown ← showSlot view slot
      return .list [shown]
    | none => return .none
  | .connect label signal term => do
    let a ← addressOf label
    let slot ← slotOf term
    let id ← Bridge.ofRuntime .runtime (Signal.attach a signal (.fixed slot))
    return .nat id
  | .connectionCount label => do
    let a ← addressOf label
    let i ← liveInstance a
    return .nat i.connections.length

end Session
end ObjectBridge
