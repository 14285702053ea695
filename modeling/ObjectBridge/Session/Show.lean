import ObjectBridge.Handle.Text
import ObjectBridge.Listing

/-!
# Labels, slots and values of a session

Addresses are not shown; a label stands for each of them.  The labels are those of the address book
and, for other addresses, the names of the variables that hold them.
-/

namespace ObjectBridge
namespace Session

open Program Script

/-- The address that a value holds, if it is a handle or a bare address. -/
def heldAddress? (s : Store) : Value → Option Address
  | .handle h => some (s.handle h).address
  | .pointer a => some a
  | _ => none

/-- The address with a label. -/
def addressOf (label : Option String) : Program Address :=
  match label with
  | none => return 0
  | some name => do
    let b ← bench
    let s ← store
    match b.book.lookup name with
    | some a => return a
    | none =>
      match (s.bindings.lookup name).bind (heldAddress? s) with
      | some a => return a
      | none => stop (.malformed ("no address has the label " ++ name))

/-- The label of an address. -/
def labelOf (b : Bench) (s : Store) (a : Address) : Report :=
  if a = 0 then .none
  else
    match b.book.find? fun entry => entry.2 = a with
    | some entry => .text entry.1
    | none =>
      match s.bindings.find? fun binding => heldAddress? s binding.2 = some a with
      | some binding => .text binding.1
      | none => .text "anon"

/-- Show an address by its label. -/
def showAddress (a : Address) : Program Report := do
  let b ← bench
  let s ← store
  return labelOf b s a

/-- The report of the bits of a slot. -/
def bitsReport (slot : Slot) : Report :=
  .text ("0x" ++ Text.paddedHex 16 slot.bits.toNat)

/-- The report of an element of a native array. -/
def elementReport (s : Scalar) (word : Nat) : Report :=
  match s with
  | .integer f => .int (f.read word)
  | .float => .real32 (⟨word⟩ : Slot).toReal32
  | .double => .real64 (⟨word⟩ : Slot).toReal64

/-- Show what lies at an address, none for the null address. -/
def showAt (a : Address) (f : Memory → Program Report) : Program Report :=
  if a = 0 then return .none
  else do
    let m ← memory
    f m

/-- Show a slot. -/
def showSlot (view : View) (slot : Slot) : Program Report :=
  let a := slot.address
  match view with
  | .bits => return bitsReport slot
  | .bool => return .bool slot.toBool
  | .integer f => return .int (slot.toInteger f)
  | .real32 => return .real32 slot.toReal32
  | .real64 => return .real64 slot.toReal64
  | .null => return .bool slot.isNull
  | .address => showAddress a
  | .text => showAt a fun m => return .text (m.text a)
  | .texts => showAt a fun m => return .texts (m.texts a m.extent)
  | .box => showAt a fun m => do
    let label ← showAddress (m.readAddress (a + 8))
    return .record [("g_type", .nat (m.readWord a 8)), ("ptr", label),
      ("data1", .nat (m.readWord (a + 16) 8))]
  | .elements s count => showAt a fun m =>
    return .each (elementReport s) (Codec.elementWords m s a count)

/-- Show slots, each in its own way, as long as there are both. -/
def showSlots : List View → List Slot → Program (List Report)
  | view :: views, slot :: slots => do
    let r ← showSlot view slot
    let rs ← showSlots views slots
    return r :: rs
  | _, _ => return []

/-- The slot that a term writes.  Strings are stored in new memory. -/
def slotOf : SlotTerm → Program Slot
  | .zero => return .zero
  | .bits word => return .ofBits word
  | .bool b => return .ofBool b
  | .integer f n => return .ofInteger f n
  | .real32 r => return .ofReal32 r
  | .real64 r => return .ofReal64 r
  | .address label => do
    let a ← addressOf label
    return .ofAddress a
  | .text content => do
    let a ← placeText content
    return .ofAddress a
  | .bytes content => do
    let a ← place (content ++ [0])
    return .ofAddress a
  | .texts content => do
    let strings ← each placeText content
    let a ← placeCells (strings.flatMap Cell.ofAddress ++ Cell.ofAddress 0)
    return .ofAddress a

/-- The value that a term writes.  The value of a variable is shared by the temporaries. -/
def valueOf : ValueTerm → Program Value
  | .literal l => return l.value
  | .pointer label => do
    let a ← addressOf label
    return .pointer a
  | .variable name => do
    let s ← store
    match s.bindings.lookup name with
    | some v => do
      forEach hold v.claims
      return v
    | none => stop (.malformed ("no variable is named " ++ name))

/-- The argument that a term writes. -/
def argumentOf : ArgumentTerm → Program Argument
  | .value v => do
    let v ← valueOf v
    return .value v
  | .keyword name v => do
    let v ← valueOf v
    return .keyword name v
  | .symbol name => return .symbol name
  | .output name => return .output name

/-- The entry with an identifier. -/
def entryOf (id : String) : Program Token := do
  let b ← bench
  match b.identifiers.lookup id with
  | some t => return t
  | none => stop (.malformed ("no entry is identified as " ++ id))

/-- The handle in a variable, shared by the temporaries. -/
def handleOf (name : String) : Program HandleId := do
  match ← valueOf (.variable name) with
  | .handle h => return h
  | _ => stop (.malformed ("no handle is in the variable " ++ name))

/-- The namespace in a variable. -/
def libraryOf (name : String) : Program (String × String) := do
  match ← valueOf (.variable name) with
  | .library library version => return (library, version)
  | _ => stop (.malformed ("no namespace is in the variable " ++ name))

/-- Show the handle of a value. -/
def showHandle (h : HandleId) : Program Report := do
  let r ← handleRecord h
  let type ←
    match r.info with
    | some info => do
      let name ← Descriptor.qualifiedName info
      pure (Report.text name)
    | none => pure .none
  let kind ←
    match r.info with
    | some info => do
      let e ← entry info
      pure (Report.text e.kind.name)
    | none => pure .none
  let label ← showAddress r.address
  let s ← store
  let references := if s.isLive r.address then Report.nat (s.references r.address) else .none
  return .record [("handle", .record
    [("type", type), ("kind", kind),
      ("own", .option (fun attachment => .text attachment.ownership.name) r.attachment),
      ("ptr", label), ("refs", references)])]

/-- The report of the elements of an array, with the name of their type. -/
def elementsReport (elements : Elements) : Report :=
  let items :=
    match elements with
    | .char xs => .each (fun x => .nat x.toNat) xs
    | .short xs => .each (fun x => .int x.toInt) xs
    | .int xs => .each (fun x => .int x.toInt) xs
    | .long xs => .each (fun x => .int x.toInt) xs
    | .float xs => .each .real32 xs
    | .double xs => .each .real64 xs
    | .string xs => .texts xs
  .record [("arr", .text elements.elementName), ("v", items)]

/-- Show a value. -/
def showValue : Value → Program Report
  | .nil => return .none
  | .int n => return .int n.toInt
  | .real r => return .record [("real", .real64 r)]
  | .str text => return .text text
  | .pointer a => do
    let label ← showAddress a
    return .record [("ptr", label)]
  | .array elements => return elementsReport elements
  | .handle h => showHandle h
  | .library name version => return .record [("namespace", .texts [name, version])]

/-- The report of a listing. -/
def listingReport (l : Listing) : Report :=
  .record
    [("name", .text l.title),
      ("kind", .text l.kind.name),
      ("bound", .bool l.instanceText.isSome),
      ("runtime_type", .option .text l.runtimeType),
      ("sections", .each (fun s => .list [.text s.group.heading, .texts s.items]) l.sections),
      ("parent", .option .text l.parent),
      ("methods", .option .nat (l.count? .method)),
      ("text", .text (Text.redact l.text))]

/-- The report of the counts of a session. -/
def totalsReport (t : Totals) : Report :=
  .record
    [("live", .nat t.live), ("created", .nat t.created), ("finalized", .nat t.finalized),
      ("info_refs", .int t.entryReferences)]

end Session
end ObjectBridge
