/-!
# Kinds of entries and tags of types

An entry of the type database has a kind; an entry that describes a type has a tag as well.  The
names here are the ones that listings and messages show.
-/

namespace ObjectBridge

/-- What an entry of the type database describes. -/
inductive EntryKind where
  /-- No entry. -/
  | invalid
  /-- A function or method. -/
  | function
  /-- A callback type. -/
  | callback
  /-- A plain record type. -/
  | struct
  /-- A record type with a runtime type of its own. -/
  | boxed
  /-- An enumeration. -/
  | enum
  /-- A set of bit flags. -/
  | flags
  /-- An object type. -/
  | object
  /-- An interface type. -/
  | interface
  /-- A constant. -/
  | constant
  /-- A record type whose fields overlap. -/
  | union
  /-- A value of an enumeration or of a set of bit flags. -/
  | value
  /-- A signal of an object or interface type. -/
  | signal
  /-- A virtual function. -/
  | vfunc
  /-- A property. -/
  | property
  /-- A field. -/
  | field
  /-- An argument of a callable. -/
  | argument
  /-- The type of an argument, a property, a field or a constant. -/
  | type
  /-- An entry that could not be found. -/
  | unresolved
  deriving DecidableEq, Repr

namespace EntryKind

/-- The name of a kind. -/
def name : EntryKind → String
  | invalid => "invalid"
  | function => "function"
  | callback => "callback"
  | struct => "struct"
  | boxed => "boxed"
  | enum => "enum"
  | flags => "flags"
  | object => "object"
  | interface => "interface"
  | constant => "constant"
  | union => "union"
  | value => "value"
  | signal => "signal"
  | vfunc => "vfunc"
  | property => "property"
  | field => "field"
  | argument => "arg"
  | type => "type"
  | unresolved => "unresolved"

/-- Whether entries of a kind can be called. -/
def isCallable : EntryKind → Bool
  | function | callback | signal | vfunc => true
  | _ => false

/-- Whether entries of a kind are types known to the object runtime. -/
def isRegistered : EntryKind → Bool
  | struct | boxed | enum | flags | object | interface | union => true
  | _ => false

/-- Whether instances of a kind are records of fields. -/
def isRecord : EntryKind → Bool
  | struct | boxed | union => true
  | _ => false

/-- Whether entries of a kind list named numbers. -/
def isEnumeration : EntryKind → Bool
  | enum | flags => true
  | _ => false

end EntryKind

/-- The outermost form of a type. -/
inductive Tag where
  /-- No value. -/
  | void
  /-- A truth value. -/
  | boolean
  /-- A signed integer of 8 bits. -/
  | int8
  /-- An unsigned integer of 8 bits. -/
  | uint8
  /-- A signed integer of 16 bits. -/
  | int16
  /-- An unsigned integer of 16 bits. -/
  | uint16
  /-- A signed integer of 32 bits. -/
  | int32
  /-- An unsigned integer of 32 bits. -/
  | uint32
  /-- A signed integer of 64 bits. -/
  | int64
  /-- An unsigned integer of 64 bits. -/
  | uint64
  /-- A real number of 32 bits. -/
  | float
  /-- A real number of 64 bits. -/
  | double
  /-- The number of a runtime type. -/
  | gtype
  /-- A native string. -/
  | utf8
  /-- A native string that names a file. -/
  | filename
  /-- An array. -/
  | array
  /-- An instance of a registered type, or a callback. -/
  | interface
  /-- A list linked in both directions. -/
  | glist
  /-- A list linked forward only. -/
  | gslist
  /-- A hash table. -/
  | ghash
  /-- An error record. -/
  | error
  /-- A character. -/
  | unichar
  deriving DecidableEq, Repr

namespace Tag

/-- The name of a tag. -/
def name : Tag → String
  | void => "void"
  | boolean => "boolean"
  | int8 => "int8"
  | uint8 => "uint8"
  | int16 => "int16"
  | uint16 => "uint16"
  | int32 => "int32"
  | uint32 => "uint32"
  | int64 => "int64"
  | uint64 => "uint64"
  | float => "float"
  | double => "double"
  | gtype => "gtype"
  | utf8 => "utf8"
  | filename => "filename"
  | array => "array"
  | interface => "interface"
  | glist => "glist"
  | gslist => "gslist"
  | ghash => "ghash"
  | error => "error"
  | unichar => "unichar"

/-- Every tag, in order. -/
def all : List Tag :=
  [void, boolean, int8, uint8, int16, uint16, int32, uint32, int64, uint64, float, double, gtype,
    utf8, filename, array, interface, glist, gslist, ghash, error, unichar]

/-- Whether a tag is that of a linked list. -/
def isList : Tag → Bool
  | glist | gslist => true
  | _ => false

/-- Whether values of a tag are native strings. -/
def isString : Tag → Bool
  | utf8 | filename => true
  | _ => false

/-- Whether values of a tag are always addresses. -/
def isAddress : Tag → Bool
  | utf8 | filename | array | glist | gslist | ghash | error => true
  | _ => false

/-- The number of bytes that a field of a tag takes. -/
def fieldWidth : Tag → Nat
  | int8 | uint8 => 1
  | int16 | uint16 => 2
  | boolean | int32 | uint32 | float | unichar => 4
  | _ => 8

end Tag

/-- How the elements of an array type are stored. -/
inductive ArrayForm where
  /-- Elements one after the other. -/
  | plain
  /-- A growable array. -/
  | growable
  /-- A growable array of addresses. -/
  | addresses
  /-- A growable array of bytes. -/
  | bytes
  deriving DecidableEq, Repr

/-- The name of an array form. -/
def ArrayForm.name : ArrayForm → String
  | plain => "C"
  | growable => "Array"
  | addresses => "PtrArray"
  | bytes => "ByteArray"

/-- Which way an argument of a callable travels. -/
inductive Passing where
  /-- To the callee. -/
  | into
  /-- From the callee. -/
  | out
  /-- To the callee and back. -/
  | both
  deriving DecidableEq, Repr

/-- The name of a way of passing. -/
def Passing.name : Passing → String
  | into => "In"
  | out => "Out"
  | both => "InOut"

/-- The groups into which the members of an entry fall. -/
inductive MemberGroup where
  /-- Functions of the entry. -/
  | method
  /-- Properties. -/
  | property
  /-- Fields. -/
  | field
  /-- Signals. -/
  | signal
  /-- Virtual functions. -/
  | vfunc
  /-- Constants. -/
  | constant
  /-- Values of an enumeration. -/
  | value
  deriving DecidableEq, Repr

namespace MemberGroup

/-- The heading of a group in a listing. -/
def heading : MemberGroup → String
  | method => "methods"
  | property => "properties"
  | field => "fields"
  | signal => "signals"
  | vfunc => "virtual functions"
  | constant => "constants"
  | value => "values"

/-- Every group, in order. -/
def all : List MemberGroup :=
  [method, property, field, signal, vfunc, constant, value]

end MemberGroup

end ObjectBridge
