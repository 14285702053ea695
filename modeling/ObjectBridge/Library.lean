import ObjectBridge.Handle.Access

/-!
# Loaded namespaces

A namespace is required by its name, and possibly by a version and a directory.  The required
namespaces are remembered with the version that was loaded last.  From a loaded namespace the
entries are extracted by name: a constant as its value, anything else as a handle.
-/

namespace ObjectBridge
namespace Library

open Program

/-- Load a namespace and remember it as required. -/
def load (name : String) (version directory : Option String) : Bridge Value := do
  let db ← database
  match Catalog.load? name version directory db.catalog with
  | none => throw (.libraryUnavailable (Catalog.notFound name version).message)
  | some (found, catalog) =>
    request (.setDatabase { db with catalog := catalog })
    request (.recordRequired name found)
    return .library name found

/-- The required namespaces with their versions, in the order of their names. -/
def required : Program (List (String × String)) := do
  let found : List (String × String) ← request .required
  return found.mergeSort fun a b => a.1 ≤ b.1

/-- Extract an entry of a namespace. -/
def extract (library name : String) : Bridge Value :=
  Bridge.region Value.claims do
    let db ← database
    match ← Descriptor.take (db.named? library name) with
    | none => throw (.noMember (library ++ "." ++ name))
    | some t =>
      let e ← entry t
      if e.kind = .constant then
        match ← Descriptor.declared? t with
        | some type => Codec.decode e.constantSlot type
        | none => throw (.unsupported ("constant " ++ name))
      else
        let h ← Handle.unbound t
        return .handle h

/-- The entries of a namespace that are found by name, in order of creation. -/
def list (library : String) : Program (List Entry) := do
  let db ← database
  region keepNothing do
    each (fun t => do
      hold (.entry t)
      entry t) (db.topLevel library)

end Library
end ObjectBridge
