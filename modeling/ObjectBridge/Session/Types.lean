import ObjectBridge.Listing
import ObjectBridge.Session.Declare
import ObjectBridge.Signature

/-!
# Answers about types

A step that names a type makes it first and claims it as long as the step runs.  What is found
under a name is shown by its token, and by the spelling under which it was found.
-/

namespace ObjectBridge
namespace Session

open Program Script

/-- Make a type and claim it for the temporaries. -/
def describedType (term : TypeTerm) : Program Token := do
  let t ← typeOf term
  hold (.entry t)
  return t

/-- The report of the token of an entry that may be absent. -/
def tokenReport (t : Option Token) : Report := .option .nat t

/-- The report of a found member and its spelling. -/
def spelledReport (found : Option (Token × String)) : Report :=
  .option (fun (t, name) => .list [.nat t, .text name]) found

/-- The report of the resolved meaning of a name. -/
def memberReport : Member → Report
  | .enumValue number => .record [("enum", .int number.toInt)]
  | .method t => .record [("method", .nat t)]
  | .property t name => .record [("property", .nat t), ("name", .text name)]
  | .field t name => .record [("field", .nat t), ("name", .text name)]
  | .signal t => .record [("signal", .nat t)]

/-- Look a name up on a type. -/
def find (t : Token) (lookup : Lookup) (name : String) : Program Report :=
  match lookup with
  | .enumValue => do
    let number ← Member.findEnumValue t name
    return .option (fun (n : Int64) => .int n.toInt) number
  | .method => do
    let found ← Member.findMethod t name
    return tokenReport found
  | .signal => do
    let found ← Member.findSignal t name
    return tokenReport found
  | .property => do
    let found ← Member.findProperty t name
    return spelledReport found
  | .field => do
    let found ← Member.findField t name
    return spelledReport found
  | .member group => do
    let found ← Descriptor.member? group name t
    return tokenReport found

/-- The qualified names of a type and of its ancestors, nearest first, up to the one whose own name
is looked for; a walk that finds it also gives its token. -/
def walkNames (stop : Option String) : Nat → Token → Program (List String × Option Token)
  | 0, _ => return ([], none)
  | limit + 1, t => do
    let name ← Descriptor.qualifiedName t
    let e ← entry t
    if stop = some e.shownName then return ([name], some t)
    match e.parent? with
    | none => return ([name], none)
    | some parent =>
      region keepNothing do
        hold (.entry parent)
        trace [parent]
        let (names, hit) ← walkNames stop limit parent
        return (name :: names, hit)

/-- Show the number of references to entries that were not given back. -/
def showEntryReferences : Program Report := do
  let s ← store
  return .int s.ledger.total

/-- Report a descriptor. -/
def describeDescriptor (t : Token) : Program Report := do
  let shown ← Descriptor.render t
  let e ← entry t
  let name ← Descriptor.qualifiedName t
  let declared ← region keepNothing do
    match ← Descriptor.declared? t with
    | some type => do
      let declaredName ← Descriptor.qualifiedName type
      pure (Report.text declaredName)
    | none => pure .none
  let members ← each (fun group => Descriptor.memberEntries group t) MemberGroup.all
  let references ← showEntryReferences
  return .record
    [("debug", .text shown), ("name", .text e.shownName), ("namespace", .text e.shownHome),
      ("qualified", .text name), ("declared", declared),
      ("members", .each (fun es => .texts (es.map Entry.shownName)) members),
      ("refs_now", references)]

/-- Report a parameter of a signature. -/
def parameterReport (p : SignatureParameter) : Program Report := do
  let type ← Descriptor.qualifiedName p.type
  return .texts [p.name, p.passing.name, type]

/-- Report a signature. -/
def signatureReport (s : Signature) : Program Report := do
  let parameters ← each parameterReport s.parameters
  let result ←
    match s.result with
    | some type => do
      let name ← Descriptor.qualifiedName type
      pure (Report.text name)
    | none => pure .none
  return .record
    [("params", .list parameters), ("ret", result), ("method", .bool s.isMethod),
      ("throws", .bool s.fails), ("arity", .nat s.arity)]

end Session
end ObjectBridge
