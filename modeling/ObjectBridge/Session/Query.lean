import ObjectBridge.Runtime.Field
import ObjectBridge.Session.Types

/-!
# Direct questions to the type database

A question that answers with an entry claims it, as every question does; the claim is given back
as soon as the entry is shown.
-/

namespace ObjectBridge
namespace Session

open Program Script

/-- Report an entry that a query gave. -/
def entryReport (t : Option Token) : Program Report :=
  match t with
  | none => return .none
  | some t => do
    let e ← entry t
    return .record [("token", .nat t), ("kind", .text e.kind.name), ("name", .text e.shownName)]

/-- Report an entry that a query gave, and give it back. -/
def reportEntry (p : Program (Option Token)) : Program Report :=
  region keepNothing do
    let t ← p
    entryReport t

/-- Answer a question about an entry. -/
def query (t : Token) (question : EntryQuery) : Bridge Report := do
  let e ← entry t
  match question with
  | .kind => return .text e.kind.name
  | .name => return .option .text e.name
  | .home => return .option .text e.home
  | .take => do
    request (.takeEntry t)
    showEntryReferences
  | .giveBack => do
    request (.giveBackEntry t)
    showEntryReferences
  | .memberCount group => return .nat (e.membersOf group).length
  | .member group index => reportEntry (Descriptor.take (e.membersOf group)[index]?)
  | .parent => reportEntry (Descriptor.parent? t)
  | .number => return .nat e.number
  | .size => return .nat e.size
  | .tag => return .text e.tag.name
  | .target => reportEntry (Descriptor.target? t)
  | .part index => reportEntry (Descriptor.part? t index)
  | .isAddress => return .bool e.isAddress
  | .arrayForm => return .text e.arrayForm.name
  | .lengthIndex => return .option .nat e.lengthIndex?
  | .fixedSize => return .option .nat e.fixedSize?
  | .zeroTerminated => return .bool e.zeroTerminated
  | .storage => return .text e.storage.name
  | .enumValue => return .int e.enumValue.toInt
  | .argumentCount => return .nat e.arguments.length
  | .argument index => reportEntry (Descriptor.argument? t index)
  | .result => reportEntry (Descriptor.result? t)
  | .callableFlags => return .text (e.callableFlags.render CallableFlag.names)
  | .propertyFlags => return .text (e.propertyFlags.render PropertyFlag.names)
  | .passing => return .text e.passing.name
  | .declared => reportEntry (Descriptor.declared? t)
  | .readField label view => do
    let a ← addressOf label
    let slot ← Bridge.ofRuntime .runtime (Runtime.readField t a)
    showSlot view slot
  | .writeField label term => do
    let a ← addressOf label
    let slot ← slotOf term
    Bridge.ofRuntime .runtime (Runtime.writeField t a slot)
    return .none
  | .constantSlot view => showSlot view e.constantSlot

/-- Answer a question that names no entry. -/
def queryCatalog (question : CatalogQuery) : Program Report := do
  let db ← database
  match question with
  | .count home => return .nat (db.topLevel home).length
  | .position home index => reportEntry (Descriptor.take (db.topLevel home)[index]?)
  | .named home name => reportEntry (Descriptor.take (db.named? home name))
  | .numbered number => reportEntry (Descriptor.take (db.registered? number))
  | .valueBoxNumber => return .nat Database.valueBoxNumber

end Session
end ObjectBridge
