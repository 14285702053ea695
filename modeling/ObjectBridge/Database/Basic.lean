import ObjectBridge.Database.Catalog
import ObjectBridge.Database.Entry

/-!
# The type database

The database is a growing table of entries with an index from type numbers to entries.  Entries are
only added; the few later changes add a member to an entry.
-/

namespace ObjectBridge

/-- The type database. -/
structure Database where
  /-- The entries; the entry with token `t` stands at position `t - 1`. -/
  entries : Array Entry := #[]
  /-- The entry that was registered first for each type number. -/
  registered : List (TypeNumber × Token) := []
  /-- The type number of the next registered type. -/
  nextNumber : TypeNumber := 100
  /-- The namespaces and their versions. -/
  catalog : Catalog := []
  /-- The directories in which namespaces are searched. -/
  searchPath : List String := ["/usr/lib/girepository-1.0"]
  deriving DecidableEq, Repr, Inhabited

namespace Database

/-- The type number of the generic value box. -/
def valueBoxNumber : TypeNumber := 1

/-- The number of bytes of the generic value box. -/
def valueBoxSize : Nat := 24

/-- The entry with a token. -/
def entry? (db : Database) (t : Token) : Option Entry :=
  if t = 0 then none else db.entries[t - 1]?

/-- The entry registered for a type number. -/
def registered? (db : Database) (number : TypeNumber) : Option Token :=
  db.registered.lookup number

/-- The tokens of all entries. -/
def tokens (db : Database) : List Token :=
  (List.range db.entries.size).map (· + 1)

/-- The tokens of the entries that are found by name in a namespace, in order of creation. -/
def topLevel (db : Database) (home : String) : List Token :=
  db.tokens.filter fun t =>
    match db.entry? t with
    | some e => e.topLevel && e.home = some home
    | none => false

/-- Whether the entry of a token has a name. -/
def hasName (db : Database) (name : String) (t : Token) : Bool :=
  match db.entry? t with
  | some e => e.name = some name
  | none => false

/-- The first entry of a name in a namespace. -/
def named? (db : Database) (home name : String) : Option Token :=
  (db.topLevel home).find? (db.hasName name)

/-- The tokens from an entry up through its parents, at most `limit` of them. -/
def ancestry (db : Database) : Nat → Option Token → List Token
  | 0, _ => []
  | _, none => []
  | limit + 1, some t => t :: db.ancestry limit ((db.entry? t).bind Entry.parent?)

/-- The entries of a registered type and of its ancestors, nearest first. -/
def chain (db : Database) (number : TypeNumber) : List Token :=
  db.ancestry db.entries.size (db.registered? number)

/-- The first member of a group and a name that an entry declares itself. -/
def ownMember? (db : Database) (group : MemberGroup) (name : String) (owner : Token) :
    Option Token :=
  match db.entry? owner with
  | some e => (e.membersOf group).find? (db.hasName name)
  | none => none

/-- The member of a group and a name that a registered type or the nearest of its ancestors
declares. -/
def chainMember? (db : Database) (number : TypeNumber) (group : MemberGroup) (name : String) :
    Option Token :=
  (db.chain number).findSome? (db.ownMember? group name)

/-- Whether a registered type is another one or descends from it. -/
def isA (db : Database) (number ancestor : TypeNumber) : Bool :=
  if number = ancestor then number ≠ 0
  else (db.chain number).any fun t =>
    match db.entry? t with
    | some e => e.number = ancestor
    | none => false

/-- The name of a registered type. -/
def typeName? (db : Database) (number : TypeNumber) : Option String :=
  (db.registered? number).bind fun t => (db.entry? t).bind Entry.name

/-- The tag of a type entry. -/
def tagOf (db : Database) (t : Token) : Tag :=
  match db.entry? t with
  | some e => e.tag
  | none => .void

/-- The tag of the declared type of an entry. -/
def declaredTag (db : Database) (t : Token) : Tag :=
  match (db.entry? t).bind Entry.declared? with
  | some type => db.tagOf type
  | none => .void

end Database

end ObjectBridge
