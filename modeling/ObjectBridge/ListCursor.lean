import ObjectBridge.Codec.Decode

/-!
# Linked lists

A handle on a list type is a cursor on a native list node: the address of the data, the address of
the next node and, for a doubly linked list, the address of the previous node.  Moving along a list
changes nothing.
-/

namespace ObjectBridge
namespace ListCursor

open Program Descriptor

/-- What can be asked of a cursor. -/
inductive Part where
  /-- The datum of the node. -/
  | data
  /-- The next node. -/
  | next
  /-- The previous node. -/
  | previous
  /-- The number of nodes from this one on. -/
  | size
  deriving DecidableEq, Repr

/-- The part of a name. -/
def part? (name : String) : Option Part :=
  if name = "data" then some .data
  else if name = "next" then some .next
  else if name = "prev" then some .previous
  else if name = "size" then some .size
  else none

/-- Whether an entry is a list type. -/
def isListType (e : Entry) : Bool := e.kind = .type && e.tag.isList

/-- The address of the datum of a node. -/
def datum (m : Memory) (node : Address) : Address := m.readAddress node

/-- The address of the next node. -/
def next (m : Memory) (node : Address) : Address := m.readAddress (node + 8)

/-- The address of the previous node. -/
def previous (m : Memory) (node : Address) : Address := m.readAddress (node + 16)

/-- The nodes from one on, none if there are more than `limit`. -/
def nodes? (m : Memory) : Nat → Address → Option (List Address)
  | 0, node => if node = 0 then some [] else none
  | limit + 1, node =>
    if node = 0 then some [] else (nodes? m limit (next m node)).map (node :: ·)

/-- The nodes from one on.  Each node but the last has a byte other than zero in the address of the
next one, and a byte lies in at most eight such addresses; so a list that ends has no more nodes
than the limit, and the walk along a list that does not end never comes back. -/
def nodes (m : Memory) (node : Address) : Program (List Address) :=
  match nodes? m (8 * m.extent + 1) node with
  | some found => return found
  | none => stop .ended

/-- A cursor on another node of the same list, the absent value for the null address. -/
def neighbour (info : Token) (node : Address) : Program Value := do
  if node = 0 then return .nil
  let h ← Handle.borrowed (some info) node
  return .handle h

/-- Decode the datum of a node. -/
def decodeDatum (info : Token) (a : Address) : Bridge Value :=
  Bridge.region Value.claims do
    match ← Descriptor.part? info 0 with
    | some element => Codec.decode (.ofAddress a) element
    | none => throw (.unsupported "list without element type")

/-- A part of a cursor. -/
def extract (head : Address) (info : Token) (name : String) : Bridge Value := do
  match part? name with
  | none => throw (.unknownListMember name)
  | some wanted =>
    let e ← entry info
    let m ← memory
    match wanted with
    | .size => do
      let found ← nodes m head
      return .int (Int64.ofInt found.length)
    | .data => if head = 0 then throw .emptyList else decodeDatum info (datum m head)
    | .next => if head = 0 then throw .emptyList else neighbour info (next m head)
    | .previous =>
      if head = 0 then throw .emptyList
      else if e.tag ≠ .glist then throw .noPrevious
      else neighbour info (previous m head)

/-- The node some steps after another one, the null address past the end. -/
def nodeAfter (m : Memory) : Nat → Address → Address
  | 0, node => node
  | steps + 1, node => if node = 0 then 0 else nodeAfter m steps (next m node)

/-- The index that an evaluation of a cursor asks for. -/
def indexOf : List Argument → Except Failure Int
  | [.value v] =>
    match v.toInt? with
    | some n => .ok n.toInt
    | none => .error (.mismatch "list index" v.typeName)
  | arguments => .error (.mismatch "one list index" (toString arguments.length ++ " arguments"))

/-- The datum of the node with an index, counted from one. -/
def nth (head : Address) (info : Token) (arguments : List Argument) : Bridge Value := do
  let index ← indexOf arguments
  if head = 0 then throw .emptyList
  if index < 1 then throw (.outOfRange index)
  let m ← memory
  let node := nodeAfter m (index - 1).toNat head
  if node = 0 then throw (.outOfRange index)
  let a := datum m node
  if a = 0 then throw (.outOfRange index)
  decodeDatum info a

end ListCursor
end ObjectBridge
