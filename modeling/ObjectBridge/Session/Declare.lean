import ObjectBridge.Session.Show

/-!
# Declarations of a session

A declaration adds an entry to the type database.  The types that it names are made first, in
order, and the result type of a callable after the types of its parameters.
-/

namespace ObjectBridge
namespace Session

open Program Script

/-- Change the database and give the token of the new entry. -/
def change (f : Database → Token × Database) : Program Token := do
  let db ← database
  let (t, db) := f db
  request (.setDatabase db)
  return t

/-- Make the type that a term writes, its parts first. -/
def typeOf : TypeTerm → Program Token
  | .plain tag => change (·.addType (.plain tag))
  | .reference id => do
    let target ← entryOf id
    change (·.addType (.reference target))
  | .array element form zeroTerminated fixedSize lengthIndex => do
    let part ← typeOf element
    change (·.addType (.array part form zeroTerminated fixedSize lengthIndex))
  | .list tag element => do
    let part ← typeOf element
    if tag.isList then change (·.addType (.list (tag = .glist) part))
    else stop (.panicked (tag.name ++ " is not a list tag"))
  | .existing id => entryOf id

/-- Make an optional type. -/
def typeOf? : Option TypeTerm → Program (Option Token)
  | some term => do
    let t ← typeOf term
    return some t
  | none => return none

/-- The parameters of a callable, whose types are made in order. -/
def parametersOf : List (String × Passing × TypeTerm) → Program (List Database.Parameter)
  | [] => return []
  | (name, passing, term) :: rest => do
    let type ← typeOf term
    let others ← parametersOf rest
    return ⟨name, passing, type⟩ :: others

/-- The flags of a callable: the given ones or else the usual ones, without the flag of methods for
a static callable, and with the flag of failures where it may fail. -/
def flagsOf {σ : Type} (usual : FlagSet) (c : CallableTerm σ) : FlagSet :=
  let chosen := c.flags.getD usual
  let bound := if c.isStatic then chosen.without CallableFlag.method else chosen
  if c.fails then bound.union CallableFlag.fails else bound

/-- Add a callable and its implementation. -/
def declareCallable (c : CallableTerm Step) (usual : FlagSet)
    (add : Database → FlagSet → List Database.Parameter → Option Token → Token × Database) :
    Program Token := do
  let parameters ← parametersOf c.parameters
  let result ← typeOf? c.result
  let t ← change fun db => add db (flagsOf usual c) parameters result
  match c.native with
  | some native => request (.implement t native)
  | none => pure ()
  return t

/-- Add the entry of a declaration. -/
def declare : Declaration Step → Program Token
  | .object home name parent floating => do
    let parentToken ←
      match parent with
      | some id => do
        let t ← entryOf id
        pure (some t)
      | none => pure none
    change (·.addObject home name parentToken floating)
  | .interface home name => change (·.addInterface home name)
  | .callback home name => change (·.addCallback home name)
  | .valueBox home name => change (·.addValueBox home name)
  | .struct home name size => change (·.addStruct home name size)
  | .boxed home name size number => change (·.addBoxed home name size number)
  | .enum home name storage values => change (·.addEnum home name storage values)
  | .flags home name storage values => change (·.addFlags home name storage values)
  | .type term => typeOf term
  | .property owner name term flags => do
    let o ← entryOf owner
    let type ← typeOf term
    change (·.addProperty o name type flags)
  | .field owner name term offset => do
    let o ← entryOf owner
    let type ← typeOf term
    change (·.addField o name type offset)
  | .signal owner name arguments result => do
    let o ← entryOf owner
    let types ← each typeOf arguments
    let resultType ← typeOf result
    change (·.addSignal o name types resultType)
  | .vfunc owner name => do
    let o ← entryOf owner
    change (·.addVfunc o name)
  | .constant home name term slot => do
    let type ← typeOf term
    let s ← slotOf slot
    change (·.addConstant home name type s)
  | .stringConstant home name text => do
    let type ← change (·.addType (.plain .utf8))
    let a ← placeText (if text.toList.contains '\x00' then "" else text)
    change (·.addConstant home name type (.ofAddress a))
  | .function home c =>
    declareCallable c .empty fun db flags parameters result =>
      db.addFunction home c.name flags parameters result
  | .method owner c => do
    let o ← entryOf owner
    declareCallable c CallableFlag.method fun db flags parameters result =>
      db.addMethod o c.name flags parameters result

end Session
end ObjectBridge
