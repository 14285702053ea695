import ObjectBridge.Containment
import ObjectBridge.Database.Builder
import ObjectBridge.Value

/-!
# Scripts

A session is a list of steps.  The native functions and the host functions of a session are scripts
too, whose bodies are again steps.  Names in a script are labels of addresses, names of variables
and identifiers of entries; what they stand for is looked up when the step runs.
-/

namespace ObjectBridge
namespace Script

/-- How a slot is written. -/
inductive SlotTerm where
  /-- All zeros. -/
  | zero
  /-- The bits themselves. -/
  | bits (word : UInt64)
  /-- A truth value. -/
  | bool (b : Bool)
  /-- An integer in a format. -/
  | integer (format : IntegerFormat) (n : Int)
  /-- A 32-bit real number. -/
  | real32 (r : Real32)
  /-- A 64-bit real number. -/
  | real64 (r : Real64)
  /-- The address with a label, or the null address. -/
  | address (label : Option String)
  /-- A new native string. -/
  | text (content : String)
  /-- A new native string of given bytes. -/
  | bytes (content : List UInt8)
  /-- A new vector of native strings. -/
  | texts (content : List String)
  deriving DecidableEq, Repr

/-- How a slot is shown. -/
inductive View where
  /-- The bits, in base sixteen. -/
  | bits
  /-- A truth value. -/
  | bool
  /-- An integer in a format. -/
  | integer (format : IntegerFormat)
  /-- A 32-bit real number. -/
  | real32
  /-- A 64-bit real number. -/
  | real64
  /-- Whether it is the null address. -/
  | null
  /-- The label of the address. -/
  | address
  /-- The native string at the address. -/
  | text
  /-- The vector of native strings at the address. -/
  | texts
  /-- The generic value box at the address. -/
  | box
  /-- A number of elements at the address. -/
  | elements (scalar : Scalar) (count : Nat)
  deriving DecidableEq, Repr

/-- A value that is written out in full.  Handles, addresses and namespaces come from a session and
cannot be written. -/
inductive Literal where
  /-- The absent value. -/
  | nil
  /-- An integer. -/
  | int (n : Int64)
  /-- A real number. -/
  | real (r : Real64)
  /-- A text. -/
  | str (text : String)
  /-- An array. -/
  | array (elements : Elements)
  deriving DecidableEq, Repr

/-- The value that a literal writes. -/
def Literal.value : Literal → Value
  | nil => .nil
  | int n => .int n
  | real r => .real r
  | str text => .str text
  | array elements => .array elements

/-- How a host value is written. -/
inductive ValueTerm where
  /-- A value that needs no session. -/
  | literal (l : Literal)
  /-- The address with a label, or the null address. -/
  | pointer (label : Option String)
  /-- The value of a variable. -/
  | variable (name : String)
  deriving DecidableEq, Repr

/-- How an argument of an evaluation is written. -/
inductive ArgumentTerm where
  /-- A value in its position. -/
  | value (v : ValueTerm)
  /-- A value with a name. -/
  | keyword (name : String) (v : ValueTerm)
  /-- A name that is not evaluated. -/
  | symbol (name : String)
  /-- The name of a global that receives a value. -/
  | output (name : String)
  deriving DecidableEq, Repr

/-- How a type is written; every part of it but the last form makes a new entry. -/
inductive TypeTerm where
  /-- A type without parts. -/
  | plain (tag : Tag)
  /-- A type that refers to an identified entry. -/
  | reference (id : String)
  /-- An array type. -/
  | array (element : TypeTerm) (form : ArrayForm) (zeroTerminated : Bool)
      (fixedSize lengthIndex : Option Nat)
  /-- A linked list type. -/
  | list (tag : Tag) (element : TypeTerm)
  /-- An identified entry. -/
  | existing (id : String)
  deriving DecidableEq, Repr

/-- An emission by a native function, on the instance in one of its in slots. -/
structure Emission where
  /-- The position of the in slot. -/
  receiver : Nat
  /-- The signal. -/
  signal : String
  /-- The arguments. -/
  arguments : List SlotTerm
  deriving DecidableEq, Repr

/-- What a native function gives back. -/
inductive NativeResult where
  /-- An in slot. -/
  | input (index : Nat)
  /-- The reference count of the instance in an in slot. -/
  | references (index : Nat)
  /-- A new instance of a type, entered in the address book. -/
  | fresh (type label : String)
  /-- The quotient of two in slots. -/
  | quotient (dividend divisor : Nat)
  /-- A slot. -/
  | slot (s : SlotTerm)
  deriving DecidableEq, Repr

/-- The script of a native function. -/
structure Native (σ : Type) where
  /-- How the in slots are shown. -/
  inViews : List View
  /-- How the out slots are shown. -/
  outViews : List View
  /-- The signals that are raised. -/
  raises : List FatalSignal
  /-- The out slots that are stored. -/
  outputs : List (Nat × SlotTerm)
  /-- The emission, if there is one. -/
  emission : Option Emission
  /-- The steps that run. -/
  steps : List σ
  /-- The error that is reported instead of a result. -/
  error : Option String
  /-- The result. -/
  result : NativeResult

/-- The script of a host function. -/
structure HostFunction (σ : Type) where
  /-- The variables that receive the arguments. -/
  parameters : List String
  /-- The steps that run. -/
  steps : List σ
  /-- The error that is reported instead of a result. -/
  error : Option String
  /-- The result. -/
  result : ValueTerm

/-- A function or a method to declare. -/
structure CallableTerm (σ : Type) where
  /-- The name. -/
  name : String
  /-- The parameters. -/
  parameters : List (String × Passing × TypeTerm)
  /-- The type of the result. -/
  result : Option TypeTerm
  /-- Flags in place of the usual ones. -/
  flags : Option FlagSet
  /-- Whether the callable takes no instance after all. -/
  isStatic : Bool
  /-- Whether the callable may fail. -/
  fails : Bool
  /-- The implementation. -/
  native : Option (Native σ)

/-- An addition to the type database. -/
inductive Declaration (σ : Type) where
  /-- An object type. -/
  | object (home name : String) (parent : Option String) (floating : Bool)
  /-- An interface type. -/
  | interface (home name : String)
  /-- A callback type. -/
  | callback (home name : String)
  /-- The record type of the generic value box. -/
  | valueBox (home name : String)
  /-- A plain record type. -/
  | struct (home name : String) (size : Nat)
  /-- A record type with a given type number. -/
  | boxed (home name : String) (size : Nat) (number : TypeNumber)
  /-- An enumeration. -/
  | enum (home name : String) (storage : Tag) (values : List (String × Int64))
  /-- A set of bit flags. -/
  | flags (home name : String) (storage : Tag) (values : List (String × Int64))
  /-- A type. -/
  | type (t : TypeTerm)
  /-- A property. -/
  | property (owner name : String) (type : TypeTerm) (flags : FlagSet)
  /-- A field. -/
  | field (owner name : String) (type : TypeTerm) (offset : Nat)
  /-- A signal. -/
  | signal (owner name : String) (arguments : List TypeTerm) (result : TypeTerm)
  /-- A virtual function. -/
  | vfunc (owner name : String)
  /-- A constant. -/
  | constant (home name : String) (type : TypeTerm) (slot : SlotTerm)
  /-- A constant text. -/
  | stringConstant (home name text : String)
  /-- A function of a namespace. -/
  | function (home : String) (callable : CallableTerm σ)
  /-- A method of a type. -/
  | method (owner : String) (callable : CallableTerm σ)

/-- Whether a handle step makes a handle without instance, with a reference, or without one. -/
inductive HandleMode where
  /-- No instance. -/
  | unbound
  /-- An instance with a reference of its own. -/
  | retained
  /-- An instance without a reference. -/
  | borrowed
  deriving DecidableEq, Repr

/-- What a find step looks for. -/
inductive Lookup where
  /-- A value of an enumeration. -/
  | enumValue
  /-- A method, in the ancestors too. -/
  | method
  /-- A signal, in the ancestors too. -/
  | signal
  /-- A property, under either spelling. -/
  | property
  /-- A field, under either spelling. -/
  | field
  /-- A member of one group of the type itself. -/
  | member (group : MemberGroup)
  deriving DecidableEq, Repr

/-- A question to the type database about one entry. -/
inductive EntryQuery where
  /-- Its kind. -/
  | kind
  /-- Its name. -/
  | name
  /-- Its namespace. -/
  | home
  /-- Take a reference to it. -/
  | take
  /-- Give a reference to it back. -/
  | giveBack
  /-- The number of its members in a group. -/
  | memberCount (group : MemberGroup)
  /-- Its member at a position in a group. -/
  | member (group : MemberGroup) (index : Nat)
  /-- Its parent. -/
  | parent
  /-- Its type number. -/
  | number
  /-- The number of bytes of its records. -/
  | size
  /-- Its tag. -/
  | tag
  /-- The entry that it refers to. -/
  | target
  /-- Its part at a position. -/
  | part (index : Nat)
  /-- Whether its values are addresses. -/
  | isAddress
  /-- How its elements are stored. -/
  | arrayForm
  /-- The position of the argument that gives its length. -/
  | lengthIndex
  /-- Its fixed number of elements. -/
  | fixedSize
  /-- Whether its elements end with a zero. -/
  | zeroTerminated
  /-- The tag under which its values are stored. -/
  | storage
  /-- Its number, as a value of an enumeration. -/
  | enumValue
  /-- The number of its arguments. -/
  | argumentCount
  /-- Its argument at a position. -/
  | argument (index : Nat)
  /-- The type of its result. -/
  | result
  /-- Its flags as a callable. -/
  | callableFlags
  /-- Its flags as a property. -/
  | propertyFlags
  /-- Which way it travels, as an argument. -/
  | passing
  /-- Its declared type. -/
  | declared
  /-- What it holds, as a field of the instance with a label. -/
  | readField (label : Option String) (view : View)
  /-- Store a slot in it, as a field of the instance with a label. -/
  | writeField (label : Option String) (slot : SlotTerm)
  /-- Its slot, as a constant. -/
  | constantSlot (view : View)
  deriving DecidableEq, Repr

/-- A question to the type database that names no entry. -/
inductive CatalogQuery where
  /-- The number of entries found by name in a namespace. -/
  | count (home : String)
  /-- The entry at a position in a namespace. -/
  | position (home : String) (index : Nat)
  /-- The entry of a name in a namespace. -/
  | named (home name : String)
  /-- The entry registered for a type number. -/
  | numbered (number : TypeNumber)
  /-- The type number of the generic value box. -/
  | valueBoxNumber
  deriving DecidableEq, Repr

/-- A direct call of the object runtime. -/
inductive RuntimeCall where
  /-- Take a reference. -/
  | reference (label : Option String)
  /-- Give a reference back. -/
  | unreference (label : Option String)
  /-- The number of references. -/
  | references (label : Option String)
  /-- Whether there is a live instance. -/
  | isLive (label : Option String)
  /-- Whether the first reference is floating. -/
  | isFloating (label : Option String)
  /-- End the floating, or else take a reference. -/
  | sink (label : Option String)
  /-- The type number of an instance. -/
  | numberOf (label : Option String)
  /-- The name of a registered type. -/
  | typeName (number : TypeNumber)
  /-- Whether a registered type is another one or descends from it. -/
  | isA (number ancestor : TypeNumber)
  /-- Construct an instance with initial properties, and label it. -/
  | construct (number : TypeNumber) (initial : List (String × SlotTerm)) (label : Option String)
  /-- Read a property. -/
  | readProperty (label : Option String) (name : String) (view : View)
  /-- Write a property. -/
  | writeProperty (label : Option String) (name : String) (slot : SlotTerm)
  /-- The stored slot of a property, if there is one. -/
  | storedProperty (label : Option String) (name : String) (view : View)
  /-- Connect a handler that always answers with the same slot. -/
  | connect (label : Option String) (signal : String) (reply : SlotTerm)
  /-- The number of connections. -/
  | connectionCount (label : Option String)
  deriving DecidableEq, Repr

/-- The host function that a connection calls, by its name or as a value. -/
inductive Target where
  /-- The function that has the name when the signal arrives. -/
  | named (function : String)
  /-- The function as a value. -/
  | closure (function : String)
  deriving DecidableEq, Repr

/-- One step of a session. -/
inductive Step where
  /-- Declare a public version of a namespace. -/
  | declareNamespace (name version : String)
  /-- Declare a private version of a namespace. -/
  | declarePrivateNamespace (directory name version : String)
  /-- Add an entry to the type database, and identify it. -/
  | declare (declaration : Declaration Step) (id : Option String)
  /-- Make an instance whose reference is kept by the session itself. -/
  | newInstance (type label : String)
  /-- Make an instance whose only reference is that of a saved handle. -/
  | makeInstance (type save : String)
  /-- Reserve memory with given first bytes. -/
  | memory (label : String) (bytes : List UInt8) (size : Nat)
  /-- Show an address. -/
  | peek (label : Option String) (view : View)
  /-- Make a native list of data. -/
  | nativeList (label : String) (items : List SlotTerm)
  /-- Make a handle. -/
  | handle (mode : HandleMode) (type : Option TypeTerm) (label save : Option String)
  /-- Make a handle without an instance. -/
  | classHandle (type : String) (save : Option String)
  /-- Save a value. -/
  | set (v : ValueTerm) (save : Option String)
  /-- Remove a variable. -/
  | drop (name : String)
  /-- Show a global of the host. -/
  | global (name : String) (save : Option String)
  /-- Remove a global of the host. -/
  | dropGlobal (name : String)
  /-- Define a host function. -/
  | define (name : String) (function : HostFunction Step)
  /-- Show the counts of the session. -/
  | counters
  /-- Load a namespace. -/
  | require (name : String) (version save : Option String)
  /-- Load a namespace from a directory. -/
  | requirePrivate (directory name : String) (version save : Option String)
  /-- Show the search path. -/
  | searchPath
  /-- Put a directory in front of the search path. -/
  | prependSearchPath (directory : String)
  /-- Whether a namespace is loaded. -/
  | isLoaded (name : String) (version : Option String)
  /-- The loaded version of a namespace. -/
  | loadedVersion (name : String)
  /-- The public versions of a namespace. -/
  | publicVersions (name : String)
  /-- The names of the loaded namespaces. -/
  | loadedNames
  /-- The required namespaces and their versions. -/
  | requiredNamespaces
  /-- Show the bridge. -/
  | bridge
  /-- Extract an entry of a loaded namespace. -/
  | libraryExtract (on name : String) (save : Option String)
  /-- List a loaded namespace. -/
  | libraryList (on : String)
  /-- Show a loaded namespace. -/
  | libraryText (on : String)
  /-- Extract a member of a handle. -/
  | extract (on name : String) (save : Option String)
  /-- Get a property or field of a handle. -/
  | get (on name : String) (save : Option String)
  /-- Set a property or field of a handle. -/
  | put (on name : String) (v : ValueTerm)
  /-- Evaluate a handle. -/
  | eval (on : String) (arguments : List ArgumentTerm) (save : Option String)
  /-- List a handle. -/
  | list (on : String)
  /-- Show a handle briefly. -/
  | text (on : String)
  /-- Show a handle in full. -/
  | debugText (on : String)
  /-- Whether two handles stand for the same thing. -/
  | same (a b : String)
  /-- Connect a host function to a signal. -/
  | connect (on name : String) (target : Target) (data : Option ValueTerm)
  /-- Emit a signal. -/
  | emit (label : Option String) (name : String) (arguments : List SlotTerm)
  /-- Resolve a name on a type. -/
  | resolve (type : TypeTerm) (name : String)
  /-- Look a name up on a type. -/
  | find (type : TypeTerm) (lookup : Lookup) (name : String)
  /-- Walk from a type up through its ancestors. -/
  | walk (type : TypeTerm) (stop : Option String)
  /-- List a type. -/
  | describe (type : TypeTerm)
  /-- Show a type in full. -/
  | descriptor (type : TypeTerm)
  /-- Show the signature of a callable. -/
  | signature (type : TypeTerm)
  /-- Call a callable. -/
  | invoke (type : TypeTerm) (receiver : Option String) (arguments : List ValueTerm)
      (save : Option String)
  /-- Encode a value. -/
  | encode (type : TypeTerm) (v : ValueTerm) (view : View)
  /-- Decode a slot. -/
  | decode (type : TypeTerm) (slot : SlotTerm) (save : Option String)
  /-- Encode a value and decode the slot. -/
  | roundtrip (type : TypeTerm) (v : ValueTerm) (save : Option String)
  /-- Ask the type database about an entry. -/
  | query (type : TypeTerm) (question : EntryQuery)
  /-- Ask the type database without naming an entry. -/
  | catalog (question : CatalogQuery)
  /-- Call the object runtime. -/
  | runtime (call : RuntimeCall)
  /-- Inspect a value. -/
  | inspect (v : ValueTerm)
  /-- Whether two values are equal. -/
  | equal (a b : ValueTerm)
  /-- Show a slot in every reading. -/
  | slot (s : SlotTerm)
  /-- Show a generic value box. -/
  | valueBox (number : TypeNumber) (label : Option (Option String))
  /-- Show a kind of entries. -/
  | entryKind (kind : EntryKind)
  /-- Show a tag. -/
  | tag (tag : Tag)
  /-- Show a group of members. -/
  | memberGroup (group : MemberGroup)
  /-- Compare two sets of flags of callables. -/
  | callableFlags (a b : FlagSet)
  /-- Compare two sets of flags of properties. -/
  | propertyFlags (a b : FlagSet)
  /-- Read options from an environment. -/
  | environment (entries : List (String × String))
  /-- Switch the tracing of diagnostics. -/
  | setDiagnostics (on : Bool)
  /-- Whether diagnostics are traced. -/
  | diagnostics
  /-- Fail. -/
  | raise (failure : Failure)

end Script
end ObjectBridge
