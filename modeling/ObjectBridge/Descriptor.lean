import ObjectBridge.Machine

/-!
# Descriptors

A descriptor is a claimed entry.  Every question that answers with another entry claims that entry
for the temporaries; the caller gives it back or keeps it.
-/

namespace ObjectBridge
namespace Descriptor

open Program

/-- Claim an optional entry for the temporaries. -/
def take : Option Token → Program (Option Token)
  | some t => do
    hold (.entry t)
    return some t
  | none => return none

/-- The parent of an entry. -/
def parent? (t : Token) : Program (Option Token) := do
  let e ← entry t
  take e.parent?

/-- The entry that a type refers to. -/
def target? (t : Token) : Program (Option Token) := do
  let e ← entry t
  take e.target?

/-- A part of a type. -/
def part? (t : Token) (index : Nat) : Program (Option Token) := do
  let e ← entry t
  take e.parts[index]?

/-- An argument of a callable. -/
def argument? (t : Token) (index : Nat) : Program (Option Token) := do
  let e ← entry t
  take e.arguments[index]?

/-- The type of the result of a callable. -/
def result? (t : Token) : Program (Option Token) := do
  let e ← entry t
  take e.result?

/-- The declared type of an entry. -/
def declared? (t : Token) : Program (Option Token) := do
  let e ← entry t
  take e.declared?

/-- The entry that is registered for a type number; zero is no type number. -/
def registered? (number : TypeNumber) : Program (Option Token) := do
  if number = 0 then return none
  let db ← database
  take (db.registered? number)

/-- The first of some entries that has a name. -/
def firstNamed (name : String) : List Token → Program (Option Token)
  | [] => return none
  | t :: rest => do
    hold (.entry t)
    let e ← entry t
    if e.name = some name then return some t
    letGo (.entry t)
    firstNamed name rest

/-- The first member of a group that has a name. -/
def member? (group : MemberGroup) (name : String) (t : Token) : Program (Option Token) := do
  let e ← entry t
  firstNamed name (e.membersOf group)

/-- The entries of the members of a group. -/
def memberEntries (group : MemberGroup) (t : Token) : Program (List Entry) :=
  region keepNothing do
    let e ← entry t
    each (fun m => do
      hold (.entry m)
      entry m) (e.membersOf group)

/-- The name of an entry with its namespace; the name of a type is that of the entry it refers to,
or else its tag.  An entry only refers to earlier ones, so `limit` need not exceed its token. -/
def qualifiedNameWithin : Nat → Token → Program String
  | 0, _ => stop .ended
  | limit + 1, t => do
    let e ← entry t
    if e.kind = .type then
      match e.target? with
      | some target =>
        region keepNothing do
          hold (.entry target)
          qualifiedNameWithin limit target
      | none => return e.tag.name
    else if e.shownHome = "" then return e.shownName
    else return e.shownHome ++ "." ++ e.shownName

/-- The name of an entry with its namespace. -/
def qualifiedName (t : Token) : Program String := qualifiedNameWithin (t + 1) t

/-- The descriptor in full. -/
def render (t : Token) : Program String := do
  let e ← entry t
  let name ← qualifiedName t
  return "TypeDescriptor(" ++ e.kind.name ++ " " ++ name ++ ")"

/-- Ask an entry and then its ancestors, nearest first, until one answers.  A parent is an earlier
entry, so `limit` need not exceed the token. -/
def walkWithin {α : Type} (keep : α → List Claim) (probe : Token → Program (Option α)) :
    Nat → Token → Program (Option α)
  | 0, _ => stop .ended
  | limit + 1, t => do
    match ← probe t with
    | some found => return some found
    | none =>
      let e ← entry t
      match e.parent? with
      | none => return none
      | some parent =>
        region (fun found => (found.map keep).getD []) do
          hold (.entry parent)
          trace [parent]
          walkWithin keep probe limit parent

/-- Ask an entry and then its ancestors, nearest first, until one answers. -/
def walk {α : Type} (keep : α → List Claim) (probe : Token → Program (Option α)) (t : Token) :
    Program (Option α) :=
  walkWithin keep probe (t + 1) t

/-- The claims of a single entry. -/
def claims (t : Token) : List Claim := [.entry t]

end Descriptor
end ObjectBridge
