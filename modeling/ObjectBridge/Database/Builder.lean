import ObjectBridge.Database.Basic

/-!
# Building the type database

Each function adds entries and gives the token of the one that was asked for.  Entries that another
entry refers to are created first, except for the values of an enumeration, which follow it.
-/

namespace ObjectBridge
namespace Database

/-- Add an entry. -/
def push (db : Database) (e : Entry) : Token × Database :=
  (db.entries.size + 1, { db with entries := db.entries.push e })

/-- Add a member to the members of an entry. -/
def addMember (db : Database) (owner : Token) (group : MemberGroup) (member : Token) : Database :=
  if owner = 0 then db
  else
    { db with
      entries := db.entries.modify (owner - 1) fun e =>
        { e with members := e.members ++ [(group, member)] } }

/-- The namespace that the members of an entry belong to. -/
def homeOf (db : Database) (owner : Token) : String :=
  match db.entry? owner with
  | some e => e.shownHome
  | none => ""

/-- Add an entry that is found by its name in a namespace, which is assumed to exist. -/
def addTopLevel (db : Database) (home name : String) (content : Content) : Token × Database :=
  ({ db with catalog := db.catalog.assume home } : Database).push
    { name := some name, home := some home, topLevel := true, content := content }

/-- Register an entry for a type number, unless the number is taken. -/
def register (db : Database) (number : TypeNumber) (t : Token) : Database :=
  match db.registered? number with
  | some _ => db
  | none => { db with registered := db.registered ++ [(number, t)] }

/-- Add a registered type with a type number of its own. -/
def addNumbered (db : Database) (home name : String) (number : TypeNumber) (content : Content) :
    Token × Database :=
  let (t, db) := db.addTopLevel home name content
  (t, db.register number t)

/-- Add a registered type with the next type number. -/
def addRegistered (db : Database) (home name : String) (content : TypeNumber → Content) :
    Token × Database :=
  let number := db.nextNumber
  ({ db with nextNumber := number + 1 } : Database).addNumbered home name number (content number)

/-- Add an object type. -/
def addObject (db : Database) (home name : String) (parent : Option Token) (floating : Bool) :
    Token × Database :=
  db.addRegistered home name fun number => .object number parent floating

/-- Add an interface type. -/
def addInterface (db : Database) (home name : String) : Token × Database :=
  db.addRegistered home name .interface

/-- Add a plain record type. -/
def addStruct (db : Database) (home name : String) (size : Nat) : Token × Database :=
  db.addRegistered home name fun number => .struct number size

/-- Add a record type with a given type number. -/
def addBoxed (db : Database) (home name : String) (size : Nat) (number : TypeNumber) :
    Token × Database :=
  db.addNumbered home name number (.boxed number size)

/-- Add the record type of the generic value box. -/
def addValueBox (db : Database) (home name : String) : Token × Database :=
  db.addNumbered home name valueBoxNumber (.struct valueBoxNumber valueBoxSize)

/-- Add values to an enumeration. -/
def addValues (db : Database) (owner : Token) (home : String) :
    List (String × Int64) → Database
  | [] => db
  | (name, number) :: rest =>
    let (t, db) := db.push { name := some name, home := some home, content := .value number }
    (db.addMember owner .value t).addValues owner home rest

/-- Add an enumeration. -/
def addEnum (db : Database) (home name : String) (storage : Tag) (values : List (String × Int64)) :
    Token × Database :=
  let (t, db) := db.addRegistered home name fun number => .enum number storage
  (t, db.addValues t home values)

/-- Add a set of bit flags. -/
def addFlags (db : Database) (home name : String) (storage : Tag) (values : List (String × Int64)) :
    Token × Database :=
  let (t, db) := db.addRegistered home name fun number => .flags number storage
  (t, db.addValues t home values)

/-- Add a callback type. -/
def addCallback (db : Database) (home name : String) : Token × Database :=
  db.addTopLevel home name .callback

/-- Add a type entry. -/
def addType (db : Database) (form : TypeForm) : Token × Database :=
  db.push { name := none, home := none, content := .type form }

/-- Add a member of an entry. -/
def addOwned (db : Database) (owner : Token) (group : MemberGroup) (name : String)
    (content : Content) : Token × Database :=
  let (t, db) := db.push { name := some name, home := some (db.homeOf owner), content := content }
  (t, db.addMember owner group t)

/-- Add a property. -/
def addProperty (db : Database) (owner : Token) (name : String) (type : Token) (flags : FlagSet) :
    Token × Database :=
  db.addOwned owner .property name (.property type flags)

/-- Add a field. -/
def addField (db : Database) (owner : Token) (name : String) (type : Token) (offset : Nat) :
    Token × Database :=
  db.addOwned owner .field name (.field type offset)

/-- Add a virtual function. -/
def addVfunc (db : Database) (owner : Token) (name : String) : Token × Database :=
  db.addOwned owner .vfunc name .vfunc

/-- An argument of a callable before it is an entry. -/
structure Parameter where
  /-- The name. -/
  name : String
  /-- Which way the argument travels. -/
  passing : Passing
  /-- The declared type. -/
  type : Token
  deriving DecidableEq, Repr

/-- Add argument entries, in order. -/
def addArguments (db : Database) (home : String) : List Parameter → List Token × Database
  | [] => ([], db)
  | p :: rest =>
    let (t, db) :=
      db.push { name := some p.name, home := some home, content := .argument p.passing p.type }
    let (others, db) := db.addArguments home rest
    (t :: others, db)

/-- The parameters of a signal, which have no names of their own. -/
def signalParameters (types : List Token) : List Parameter :=
  (types.zip (List.range types.length)).map fun (type, i) => ⟨"arg" ++ toString i, .into, type⟩

/-- Add a signal. -/
def addSignal (db : Database) (owner : Token) (name : String) (types : List Token)
    (result : Token) : Token × Database :=
  let (arguments, db) := db.addArguments (db.homeOf owner) (signalParameters types)
  db.addOwned owner .signal name (.signal arguments result)

/-- Add a constant. -/
def addConstant (db : Database) (home name : String) (type : Token) (slot : Slot) :
    Token × Database :=
  db.addTopLevel home name (.constant type slot)

/-- Add a function of a namespace. -/
def addFunction (db : Database) (home name : String) (flags : FlagSet)
    (parameters : List Parameter) (result : Option Token) : Token × Database :=
  let (arguments, db) :=
    ({ db with catalog := db.catalog.assume home } : Database).addArguments home parameters
  db.addTopLevel home name (.function flags arguments result)

/-- Add a method of an entry. -/
def addMethod (db : Database) (owner : Token) (name : String) (flags : FlagSet)
    (parameters : List Parameter) (result : Option Token) : Token × Database :=
  let (arguments, db) := db.addArguments (db.homeOf owner) parameters
  db.addOwned owner .method name (.function flags arguments result)

end Database
end ObjectBridge
