import ObjectBridge.FlagSet
import ObjectBridge.Slot

/-!
# Entries of the type database

An entry describes one named thing: a type, a member of a type, an argument, or the type of one of
these.  What an entry says beyond its name depends on what it describes, so its content is an
inductive type; the questions of the bridge are asked of every entry, and an entry of another kind
gives the default answer.
-/

namespace ObjectBridge

/-- The number of an entry, counted from one in the order of creation. -/
abbrev Token := Nat

/-- The number of a type of the object runtime; zero is no type. -/
abbrev TypeNumber := Nat

/-- The form of a type entry. -/
inductive TypeForm where
  /-- A type without parts. -/
  | plain (tag : Tag)
  /-- A registered type or a callback type. -/
  | reference (target : Token)
  /-- An array type. -/
  | array (element : Token) (form : ArrayForm) (zeroTerminated : Bool)
      (fixedSize lengthIndex : Option Nat)
  /-- A linked list type, with links in both directions or only forward. -/
  | list (doubly : Bool) (element : Token)
  deriving DecidableEq, Repr

/-- What an entry says beyond its name and its members. -/
inductive Content where
  /-- An object type; instances may start out floating. -/
  | object (number : TypeNumber) (parent : Option Token) (floating : Bool)
  /-- An interface type. -/
  | interface (number : TypeNumber)
  /-- A plain record type. -/
  | struct (number : TypeNumber) (size : Nat)
  /-- A record type that brought its own type number. -/
  | boxed (number : TypeNumber) (size : Nat)
  /-- An enumeration. -/
  | enum (number : TypeNumber) (storage : Tag)
  /-- A set of bit flags. -/
  | flags (number : TypeNumber) (storage : Tag)
  /-- A callback type. -/
  | callback
  /-- A function or method. -/
  | function (flags : FlagSet) (arguments : List Token) (result : Option Token)
  /-- A signal. -/
  | signal (arguments : List Token) (result : Token)
  /-- A virtual function. -/
  | vfunc
  /-- An argument of a callable. -/
  | argument (passing : Passing) (type : Token)
  /-- A property. -/
  | property (type : Token) (flags : FlagSet)
  /-- A field. -/
  | field (type : Token) (offset : Nat)
  /-- A constant. -/
  | constant (type : Token) (slot : Slot)
  /-- A value of an enumeration or of a set of bit flags. -/
  | value (number : Int64)
  /-- A type. -/
  | type (form : TypeForm)
  deriving DecidableEq, Repr

/-- An entry of the type database. -/
structure Entry where
  /-- The name, which type entries lack. -/
  name : Option String
  /-- The namespace, which type entries lack. -/
  home : Option String
  /-- Whether the entry is found by its name in its namespace. -/
  topLevel : Bool := false
  /-- The members, in the order in which they were added. -/
  members : List (MemberGroup × Token) := []
  /-- What the entry describes. -/
  content : Content
  deriving DecidableEq, Repr

namespace Content

/-- What kind of thing is described. -/
def kind : Content → EntryKind
  | object _ _ _ => .object
  | interface _ => .interface
  | struct _ _ => .struct
  | boxed _ _ => .boxed
  | enum _ _ => .enum
  | flags _ _ => .flags
  | callback => .callback
  | function _ _ _ => .function
  | signal _ _ => .signal
  | vfunc => .vfunc
  | argument _ _ => .argument
  | property _ _ => .property
  | field _ _ => .field
  | constant _ _ => .constant
  | value _ => .value
  | type _ => .type

end Content

namespace Entry

/-- The kind of an entry. -/
def kind (e : Entry) : EntryKind := e.content.kind

/-- The name of an entry, empty if it has none. -/
def shownName (e : Entry) : String := e.name.getD ""

/-- The namespace of an entry, empty if it has none. -/
def shownHome (e : Entry) : String := e.home.getD ""

/-- The type number of a registered type, zero for other entries. -/
def number (e : Entry) : TypeNumber :=
  match e.content with
  | .object number _ _ | .interface number | .struct number _ | .boxed number _
  | .enum number _ | .flags number _ => number
  | _ => 0

/-- The parent of an object type. -/
def parent? (e : Entry) : Option Token :=
  match e.content with
  | .object _ parent _ => parent
  | _ => none

/-- Whether new instances of an object type start out floating. -/
def startsFloating (e : Entry) : Bool :=
  match e.content with
  | .object _ _ floating => floating
  | _ => false

/-- The number of bytes of a record. -/
def size (e : Entry) : Nat :=
  match e.content with
  | .struct _ size | .boxed _ size => size
  | _ => 0

/-- The tag under which the values of an enumeration are stored. -/
def storage (e : Entry) : Tag :=
  match e.content with
  | .enum _ storage | .flags _ storage => storage
  | _ => .int32

/-- The tag of a type. -/
def tag (e : Entry) : Tag :=
  match e.content with
  | .type (.plain tag) => tag
  | .type (.reference _) => .interface
  | .type (.array _ _ _ _ _) => .array
  | .type (.list doubly _) => if doubly then .glist else .gslist
  | _ => .void

/-- The entry that a type refers to. -/
def target? (e : Entry) : Option Token :=
  match e.content with
  | .type (.reference target) => some target
  | _ => none

/-- The types that a type is made of. -/
def parts (e : Entry) : List Token :=
  match e.content with
  | .type (.array element _ _ _ _) | .type (.list _ element) => [element]
  | _ => []

/-- How the elements of an array type are stored. -/
def arrayForm (e : Entry) : ArrayForm :=
  match e.content with
  | .type (.array _ form _ _ _) => form
  | _ => .plain

/-- Whether the elements of an array type end with a zero. -/
def zeroTerminated (e : Entry) : Bool :=
  match e.content with
  | .type (.array _ _ zeroTerminated _ _) => zeroTerminated
  | _ => false

/-- The fixed number of elements of an array type. -/
def fixedSize? (e : Entry) : Option Nat :=
  match e.content with
  | .type (.array _ _ _ fixedSize _) => fixedSize
  | _ => none

/-- The position of the argument that gives the length of an array type. -/
def lengthIndex? (e : Entry) : Option Nat :=
  match e.content with
  | .type (.array _ _ _ _ lengthIndex) => lengthIndex
  | _ => none

/-- Whether values of a type are addresses. -/
def isAddress (e : Entry) : Bool := e.tag.isAddress || e.target?.isSome

/-- The number of an enumeration value. -/
def enumValue (e : Entry) : Int64 :=
  match e.content with
  | .value number => number
  | _ => 0

/-- The arguments of a callable. -/
def arguments (e : Entry) : List Token :=
  match e.content with
  | .function _ arguments _ | .signal arguments _ => arguments
  | _ => []

/-- The type of the result of a callable. -/
def result? (e : Entry) : Option Token :=
  match e.content with
  | .function _ _ result => result
  | .signal _ result => some result
  | _ => none

/-- The flags of a function. -/
def callableFlags (e : Entry) : FlagSet :=
  match e.content with
  | .function flags _ _ => flags
  | _ => .empty

/-- Which way an argument travels. -/
def passing (e : Entry) : Passing :=
  match e.content with
  | .argument passing _ => passing
  | _ => .into

/-- The declared type of an argument, a property, a field or a constant. -/
def declared? (e : Entry) : Option Token :=
  match e.content with
  | .argument _ type | .property type _ | .field type _ | .constant type _ => some type
  | _ => none

/-- The flags of a property. -/
def propertyFlags (e : Entry) : FlagSet :=
  match e.content with
  | .property _ flags => flags
  | _ => .empty

/-- The offset of a field in its instance. -/
def offset (e : Entry) : Nat :=
  match e.content with
  | .field _ offset => offset
  | _ => 0

/-- The slot of a constant. -/
def constantSlot (e : Entry) : Slot :=
  match e.content with
  | .constant _ slot => slot
  | _ => .zero

/-- The members of one group, in order. -/
def membersOf (e : Entry) (group : MemberGroup) : List Token :=
  (e.members.filter fun member => member.1 = group).map fun member => member.2

end Entry

end ObjectBridge
