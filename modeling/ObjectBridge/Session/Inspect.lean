import ObjectBridge.Codec.Encode
import ObjectBridge.Library
import ObjectBridge.Session.Types

/-!
# Inspected values

A value or a slot is inspected by showing it in every reading at once.
-/

namespace ObjectBridge
namespace Session

open Program Script

/-- Inspect a value. -/
def inspect (v : Value) : Program Report := do
  let s ← store
  let shown ← v.render
  let isHandle :=
    match v with
    | .handle _ => true
    | _ => false
  let elements :=
    match v with
    | .array elements =>
      .list [.nat elements.size, .bool elements.isEmpty, .text elements.elementName]
    | _ => .none
  return .record
    [("type", .text v.typeName), ("nil", .bool v.isNil), ("truthy", .bool (Codec.truthy s v)),
      ("int", .option (fun (n : Int64) => .int n.toInt) v.toInt?),
      ("real", .option .real64 v.toReal?), ("str", .option .text v.text?),
      ("handle", .bool isHandle), ("array", elements), ("debug", .text (Text.redact shown))]

/-- The integer formats of slots, with their names. -/
def integerFormats : List (String × IntegerFormat) :=
  [("i8", ⟨8, true⟩), ("u8", ⟨8, false⟩), ("i16", ⟨16, true⟩), ("u16", ⟨16, false⟩),
    ("i32", ⟨32, true⟩), ("u32", ⟨32, false⟩), ("i64", ⟨64, true⟩), ("u64", ⟨64, false⟩)]

/-- The report of a slot in every reading. -/
def slotReport (slot : Slot) : Report :=
  .record
    ([("debug", .text slot.render), ("bits", bitsReport slot), ("bool", .bool slot.toBool),
      ("f32", .real32 slot.toReal32), ("f64", .real64 slot.toReal64), ("null", .bool slot.isNull)]
      ++ integerFormats.map fun (name, f) => (name, .int (slot.toInteger f)))

/-- Report a generic value box; without an address it is the empty one. -/
def boxReport (number : TypeNumber) (label : Option (Option String)) : Program Report := do
  let (shownNumber, a) ←
    match label with
    | some l => do
      let a ← addressOf l
      pure (number, a)
    | none => pure (0, 0)
  let shown ← showAddress a
  return .record
    [("g_type", .text ("RuntimeType(" ++ toString shownNumber ++ ")")),
      ("valid", .bool (shownNumber ≠ 0)), ("ptr", shown), ("data1", .nat 0)]

/-- The report of two flag sets: the first in full, whether it contains the second, and the bits of
both. -/
def flagsReport (names : List (String × FlagSet)) (a b : FlagSet) : Report :=
  .list [.text (a.render names), .bool (a.contains b), .nat (a.union b).bits.toNat]

/-- The text of the bridge. -/
def bridgeText : Program String := do
  let o : Options ← request .options
  let required ← Library.required
  return "Repository \x7b options: " ++ o.render ++ ", loaded: " ++ toString required.length
    ++ " \x7d"

/-- Encode a value in a fresh argument block. -/
def encodeStep (type : TypeTerm) (term : ValueTerm) (view : View) : Bridge Report := do
  let t ← describedType type
  let v ← valueOf term
  let (slot, block) ← Codec.encode v t []
  let shown ← showSlot view slot
  return .record
    [("view", shown), ("held", .nat block.length), ("empty", .bool block.isEmpty)]

end Session
end ObjectBridge
