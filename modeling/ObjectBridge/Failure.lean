/-!
# Failures

A failure says why an operation gave no value.  The object runtime and the type database report
failures of their own, which the bridge passes on.  Each failure has one message.
-/

namespace ObjectBridge

/-- A failure reported by the type database or the object runtime, with its text. -/
inductive RuntimeFailure where
  /-- A namespace could not be loaded. -/
  | library (text : String)
  /-- A native call reported an error. -/
  | invocation (text : String)
  /-- An instance could not be constructed. -/
  | construction (text : String)
  /-- A property could not be read or written. -/
  | property (text : String)
  /-- A field could not be read or written. -/
  | field (text : String)
  /-- A signal could not be connected. -/
  | signal (text : String)
  deriving DecidableEq, Repr

/-- The message of a failure of the runtime. -/
def RuntimeFailure.message : RuntimeFailure → String
  | library text | invocation text | construction text | property text | field text
  | signal text => text

/-- A failure of an operation of the bridge. -/
inductive Failure where
  /-- A value has not the type that is wanted. -/
  | mismatch (expected got : String)
  /-- A type has no conversion. -/
  | unsupported (what : String)
  /-- A type declares no member of this name. -/
  | noMember (name : String)
  /-- An enumeration has no value of this name. -/
  | noEnumValue (name : String)
  /-- A signal to connect to is not declared. -/
  | signalUnsupported (name : String)
  /-- A signal to extract is not declared. -/
  | signalNotFound (name : String)
  /-- An entry can neither be called nor constructed. -/
  | notCallable (name : String)
  /-- A callable was given a wrong number of arguments. -/
  | argumentCount (expected got : Nat)
  /-- A property cannot be read. -/
  | notReadable (name : String)
  /-- A property cannot be written. -/
  | notWritable (name : String)
  /-- A native call reported an error. -/
  | callFailed (text : String)
  /-- A native call raised a fatal signal, which was contained. -/
  | fatalSignal (name : String)
  /-- A member of instances was used without an instance. -/
  | noReceiver (name : String)
  /-- A signal has more arguments than callbacks can take. -/
  | callbackArity (count : Nat)
  /-- A handle has no type. -/
  | untyped
  /-- A namespace could not be loaded. -/
  | libraryUnavailable (text : String)
  /-- An instance could not be constructed. -/
  | constructionFailed (what : String)
  /-- A field could not be read or written. -/
  | fieldAccess (what : String)
  /-- A member of an empty list was asked for. -/
  | emptyList
  /-- A singly linked list was asked for the node before. -/
  | noPrevious
  /-- A list has no member of this name. -/
  | unknownListMember (name : String)
  /-- An index does not lie in a list. -/
  | outOfRange (index : Int)
  /-- A member was read without a place for its value. -/
  | noOutput (name : String)
  /-- Memory ran out. -/
  | outOfMemory (bytes : Nat)
  /-- The floating-point environment could not be saved. -/
  | floatEnvironment
  /-- The database or the runtime reported a failure. -/
  | runtime (failure : RuntimeFailure)
  /-- The host reported an error. -/
  | host (text : String)
  deriving DecidableEq, Repr

/-- The message of a failure. -/
def Failure.message : Failure → String
  | mismatch expected got => "Type mismatch: expected " ++ expected ++ ", got " ++ got
  | unsupported what => "Unsupported type: " ++ what
  | noMember name => "No such member: " ++ name
  | noEnumValue name => "No such enum value: " ++ name
  | signalUnsupported name => "Object does not support signal \"" ++ name ++ "\""
  | signalNotFound name => "Signal " ++ name ++ " not found"
  | notCallable name => "Object is not callable: " ++ name
  | argumentCount expected got =>
    "function takes " ++ toString expected ++ " arguments, got " ++ toString got
  | notReadable name => "property is not readable: " ++ name
  | notWritable name => "property is not writable: " ++ name
  | callFailed text => text
  | fatalSignal name => "native call received signal " ++ name
  | noReceiver name => "method " ++ name ++ " called without an instance"
  | callbackArity count => "unimplemented: callback with " ++ toString count ++ " arguments"
  | untyped => "Object has no type information"
  | libraryUnavailable text => text
  | constructionFailed what => "construction of " ++ what ++ " failed"
  | fieldAccess what => "field access failed: " ++ what
  | emptyList => "G(S)List is nil"
  | noPrevious => "Single-linked list: no prev"
  | unknownListMember name => "Unknown action for G(S)List: " ++ name
  | outOfRange index => "index out of range: " ++ toString index
  | noOutput name => "member " ++ name ++ " read without an output reference"
  | outOfMemory bytes => "could not allocate " ++ toString bytes ++ " bytes"
  | floatEnvironment => "fenv error"
  | runtime failure => failure.message
  | host text => "host error: " ++ text

end ObjectBridge
