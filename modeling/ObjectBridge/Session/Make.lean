import ObjectBridge.Handle.Basic
import ObjectBridge.Session.Types

/-!
# Instances, lists and handles of a session

What a session makes is entered in the address book, so that later steps can name it by a label.
-/

namespace ObjectBridge
namespace Session

open Program Script

/-- Link list nodes: each holds its datum and the addresses of its neighbours. -/
def linkNodes (previous : Address) : List (Address × Slot) → Program Unit
  | [] => return ()
  | (node, datum) :: rest => do
    let next :=
      match rest with
      | (following, _) :: _ => following
      | [] => 0
    request (.write node
      (Cell.ofSlot 8 datum ++ Cell.ofAddress next ++ Cell.ofAddress previous))
    linkNodes node rest

/-- The number of bytes of a list node. -/
def nodeSize : Nat := 24

/-- Label list nodes by their positions. -/
def labelNodes (label : String) : Nat → List Address → Program Unit
  | _, [] => return ()
  | index, node :: rest => do
    request (.label (label ++ "[" ++ toString index ++ "]") node)
    labelNodes label (index + 1) rest

/-- Make a native list. -/
def nativeList (label : String) (items : List SlotTerm) : Program Report := do
  let data ← each slotOf items
  let nodes : List Address ← each (fun _ => request (.place [] nodeSize)) data
  linkNodes 0 (nodes.zip data)
  labelNodes label 0 nodes
  let head ← showAddress (nodes.headD 0)
  return .record
    [("head", head), ("len", .nat nodes.length), ("empty", .bool nodes.isEmpty),
      ("past_end", .none)]

/-- Make an instance whose only reference is that of a new handle. -/
def makeInstance (type save : String) : Program Value :=
  region Value.claims do
    let t ← entryOf type
    hold (.entry t)
    let e ← entry t
    let a : Address ← request (.createDirect e.number)
    let h ← Handle.retained (some t) a
    request (.giveBackDirect a)
    request (.label save a)
    return .handle h

/-- Make a handle. -/
def makeHandle (mode : HandleMode) (type : Option TypeTerm) (label : Option String) :
    Program Value := do
  let info ←
    match type with
    | some term => do
      let t ← describedType term
      pure (some t)
    | none => pure none
  match mode with
  | .unbound =>
    match info with
    | some t => do
      let h ← Handle.unbound t
      return .handle h
    | none => stop (.malformed "a handle without instance needs a type")
  | .retained => do
    let a ← addressOf label
    let h ← Handle.retained info a
    return .handle h
  | .borrowed => do
    let a ← addressOf label
    let h ← Handle.borrowed info a
    return .handle h

end Session
end ObjectBridge
