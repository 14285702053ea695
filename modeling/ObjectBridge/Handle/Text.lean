import ObjectBridge.Handle.Access

/-!
# Texts of handles and values

A handle is shown by the entry that types it and by its address.  Values are shown in full for
inspection.
-/

namespace ObjectBridge
namespace Handle

open Program

/-- An address as it is shown. -/
def pointerText (a : Address) : String := "0x" ++ Text.hexDigits a

/-- The short text of a handle. -/
def text (h : HandleId) : Program String := do
  let r ← handleRecord h
  let start := if r.isBound then pointerText r.address ++ " is pointer to " else ""
  match r.info with
  | none => return start ++ "unknown type object"
  | some info =>
    let e ← entry info
    if e.kind = .type then
      match e.tag with
      | .glist => return start ++ "double linked list"
      | .gslist => return start ++ "single linked list"
      | tag => return start ++ tag.name ++ " type"
    else
      return start ++ "gyre object name: " ++ e.shownName ++ ", type: " ++ e.kind.name
        ++ ", namespace: " ++ e.shownHome

/-- The full text of the instance of a handle. -/
def attachmentText : Option Attachment → String
  | some attachment =>
    "Some(Instance \x7b ptr: " ++ pointerText attachment.address ++ ", ownership: "
      ++ attachment.ownership.name ++ " \x7d)"
  | none => "None"

/-- The full text of a handle. -/
def render (h : HandleId) : Program String := do
  let r ← handleRecord h
  let info ←
    match r.info with
    | some info => do
      let shown ← Descriptor.render info
      pure ("Some(" ++ shown ++ ")")
    | none => pure "None"
  return "DynamicHandle \x7b info: " ++ info ++ ", instance: " ++ attachmentText r.attachment
    ++ " \x7d"

/-- Whether two handles stand for the same thing: they are the same handle, or they have the same
type and the same address. -/
def same (s : Store) (a b : HandleId) : Bool :=
  a = b || ((s.handle a).info = (s.handle b).info && (s.handle a).address = (s.handle b).address)

end Handle

/-- The text of a loaded namespace. -/
def libraryText (name version : String) : String :=
  "namespace " ++ name ++ " version " ++ version

namespace Value

/-- Equality of values; real numbers are compared as numbers, and handles by what they stand for. -/
def same (s : Store) : Value → Value → Bool
  | nil, nil => true
  | int a, int b => a = b
  | real a, real b => a.same b
  | str a, str b => a = b
  | pointer a, pointer b => a = b
  | array a, array b => a.same b
  | handle a, handle b => Handle.same s a b
  | library a v, library b w => a = b && v = w
  | _, _ => false

/-- The full text of a value. -/
def render : Value → Program String
  | nil => return "Nil"
  | int n => return "Int(" ++ toString n.toInt ++ ")"
  | real r => return "Real(" ++ r.text .plain ++ ")"
  | str text => return "Str(" ++ Text.quote text ++ ")"
  | pointer a => return "Pointer(" ++ Handle.pointerText a ++ ")"
  | array elements => return "Array(" ++ elements.render ++ ")"
  | handle h => do
    let shown ← Handle.text h
    return "Handle(" ++ shown ++ ")"
  | library name version => return "Namespace(" ++ libraryText name version ++ ")"

end Value
end ObjectBridge
