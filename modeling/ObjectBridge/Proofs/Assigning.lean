import ObjectBridge.Proofs.Anchoring
import ObjectBridge.Proofs.Lending

/-!
# What setting a member stores

The value of a member is encoded with storage of an argument block, and the runtime stores the slot.
Of a string the runtime stores a copy.  So an address of the block is only stored where the runtime
does not know the member as a string: that of an array or of a generic value box.
-/

namespace ObjectBridge

/-- The tag under which a registered type or the nearest of its ancestors declares a property. -/
def Database.propertyTag? (db : Database) (number : TypeNumber) (name : String) : Option Tag :=
  (db.chainMember? number .property name).map db.declaredTag

open Program Bridge Descriptor

variable {calls : Calls} {w w₁ w' : World} {a b : Address} {slot kept : Slot} {tag : Tag}
  {name : String}

namespace Runtime

/-- What is kept of a slot under a tag: the slot itself, or of a string a copy in new storage. -/
def Keeps (w : World) (tag : Tag) (slot kept : Slot) : Prop :=
  (tag.isString = false ∧ kept = slot) ∨ kept.address = 0 ∨ w.memory.next ≤ kept.address

theorem Keeps.mono (keeps : Keeps w₁ tag slot kept) (next : w.memory.next ≤ w₁.memory.next) :
    Keeps w tag slot kept :=
  keeps.imp_right (Or.imp_right (Nat.le_trans next))

end Runtime

namespace Handle

variable {h : HandleId} {r : HandleRecord} {v : Value}

/-- A member of an instance whose new value is encoded, with the argument block. -/
structure Assignment where
  /-- The instance. -/
  receiver : Address
  /-- The property or the field. -/
  member : Token
  /-- Whether it is a field. -/
  isField : Bool
  /-- Its name. -/
  name : String
  /-- Its declared type. -/
  type : Token
  /-- The slot of the value. -/
  slot : Slot
  /-- The argument block. -/
  block : Codec.ArgumentBlock

/-- The tag under which the runtime knows the member. -/
def Assignment.tag? (m : Assignment) (w : World) : Option Tag :=
  if m.isField then some (w.database.declaredTag m.member)
  else (w.store.instances.get? m.receiver).bind fun i => w.database.propertyTag? i.number m.name

/-- Setting a property up to the runtime. -/
def prepareProperty (r : HandleRecord) (property : Token) (name : String) (v : Value) :
    Bridge Assignment := do
  let a ← receiver r name
  let e ← entry property
  if !e.propertyFlags.contains PropertyFlag.writable then throw (.notWritable name)
  let type ← memberType property name
  let (slot, block) ← Codec.encode v type []
  return ⟨a, property, false, name, type, slot, block⟩

/-- Setting a field up to the runtime. -/
def prepareField (r : HandleRecord) (field : Token) (name : String) (v : Value) :
    Bridge Assignment := do
  let a ← receiver r name
  let type ← memberType field name
  let (slot, block) ← Codec.encode v type []
  return ⟨a, field, true, name, type, slot, block⟩

/-- Setting a member up to the runtime. -/
def prepare (h : HandleId) (name : String) (v : Value) : Bridge Assignment := do
  let r ← handleRecord h
  let info ← typed r
  match ← Member.findProperty info name with
  | some (property, spelling) => prepareProperty r property spelling v
  | none =>
    match ← Member.findField info name with
    | some (field, spelling) => prepareField r field spelling v
    | none => throw (.noMember name)

/-- Have the runtime store the slot; the argument block is not needed any more. -/
def Assignment.commit (m : Assignment) : Bridge Unit :=
  if m.isField then
    let reading (f : RuntimeFailure) : Failure :=
      .fieldAccess ("set " ++ m.name ++ ": " ++ f.message)
    ofRuntime reading (Runtime.writeField m.member m.receiver m.slot)
  else ofRuntime .runtime (Runtime.writeProperty m.receiver m.name m.slot)

theorem writeProperty_eq {property : Token} :
    writeProperty r property name v
      = region keepNothing (prepareProperty r property name v >>= Assignment.commit) := by
  unfold writeProperty prepareProperty
  simp only [bind_assoc]
  congr 1
  refine congrArg _ (funext fun a => congrArg _ (funext fun e => ?_))
  split
  · rfl
  · simp only [bind_assoc, pure_bind]
    rfl

theorem writeField_eq {field : Token} :
    writeField r field name v
      = region keepNothing (prepareField r field name v >>= Assignment.commit) := by
  unfold writeField prepareField
  simp only [bind_assoc, pure_bind]
  rfl

theorem silent_prepareProperty {property : Token} :
    Bridge.Silent (prepareProperty r property name v) := by
  refine silent_receiver.bind fun a => (silent_lift silent_entry).bind fun e => ?_
  dsimp only
  split
  · exact silent_throw_bind
  · exact silent_memberType.bind fun _ => Codec.silent_encode.bind fun _ => Bridge.silent_pure

theorem silent_prepareField {field : Token} : Bridge.Silent (prepareField r field name v) :=
  silent_receiver.bind fun _ => silent_memberType.bind fun _ => Codec.silent_encode.bind fun _ =>
    Bridge.silent_pure

/-- What becomes of the argument block of setting a member: an address of it that is stored is the
slot of a value whose type needs storage, and the runtime does not know the member as a string. -/
def SetContained (calls : Calls) (w : World) (h : HandleId) (name : String) (v : Value) : Prop :=
  ∀ a, (set h name v).run.Stores calls w a →
    ∃ m w₁, Succeeds calls (prepare h name v) w m w₁
      ∧ (m.block.Owns a → a = m.slot.address ∧ w₁.database.holds m.type = true
        ∧ ∃ tag, m.tag? w₁ = some tag ∧ tag.isString = false)

end Handle
end ObjectBridge
