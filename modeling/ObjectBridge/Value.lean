import ObjectBridge.Binary.Decimal
import ObjectBridge.Slot
import ObjectBridge.Text.Quoted

/-!
# Host values

A host value is what the interpreter on the host side hands to the bridge and gets back.  A handle
is named by its number; what it stands for is kept by the store.
-/

namespace ObjectBridge

/-- The number of a handle. -/
abbrev HandleId := Nat

/-- An array of the host, whose elements have one type. -/
inductive Elements where
  /-- Bytes. -/
  | char (items : List UInt8)
  /-- 16-bit integers. -/
  | short (items : List Int16)
  /-- 32-bit integers. -/
  | int (items : List Int32)
  /-- 64-bit integers. -/
  | long (items : List Int64)
  /-- 32-bit real numbers. -/
  | float (items : List Real32)
  /-- 64-bit real numbers. -/
  | double (items : List Real64)
  /-- Texts. -/
  | string (items : List String)
  deriving DecidableEq, Repr

namespace Elements

/-- The number of elements. -/
def size : Elements → Nat
  | char items => items.length
  | short items => items.length
  | int items => items.length
  | long items => items.length
  | float items => items.length
  | double items => items.length
  | string items => items.length

/-- Whether there are no elements. -/
def isEmpty (e : Elements) : Bool := e.size = 0

/-- The name of the type of the elements. -/
def elementName : Elements → String
  | char _ => "char"
  | short _ => "short"
  | int _ => "int"
  | long _ => "long"
  | float _ => "float"
  | double _ => "double"
  | string _ => "string"

/-- Whether two lists agree element by element. -/
def agree {α : Type} (same : α → α → Bool) : List α → List α → Bool
  | [], [] => true
  | x :: xs, y :: ys => same x y && agree same xs ys
  | _, _ => false

/-- Equality of arrays; real numbers are compared as numbers. -/
def same : Elements → Elements → Bool
  | char xs, char ys => xs = ys
  | short xs, short ys => xs = ys
  | int xs, int ys => xs = ys
  | long xs, long ys => xs = ys
  | float xs, float ys => agree Real32.same xs ys
  | double xs, double ys => agree Real64.same xs ys
  | string xs, string ys => xs = ys
  | _, _ => false

/-- Texts between square brackets, with commas. -/
def bracketed (items : List String) : String :=
  "[" ++ ", ".intercalate items ++ "]"

/-- The array in full. -/
def render : Elements → String
  | char items => "Char(" ++ bracketed (items.map fun x => toString x.toNat) ++ ")"
  | short items => "Short(" ++ bracketed (items.map fun x => toString x.toInt) ++ ")"
  | int items => "Int(" ++ bracketed (items.map fun x => toString x.toInt) ++ ")"
  | long items => "Long(" ++ bracketed (items.map fun x => toString x.toInt) ++ ")"
  | float items => "Float(" ++ bracketed (items.map (Real32.text .detailed)) ++ ")"
  | double items => "Double(" ++ bracketed (items.map (Real64.text .detailed)) ++ ")"
  | string items => "Str(" ++ bracketed (items.map Text.quote) ++ ")"

end Elements

/-- A value of the host. -/
inductive Value where
  /-- The absent value. -/
  | nil
  /-- An integer. -/
  | int (n : Int64)
  /-- A real number. -/
  | real (r : Real64)
  /-- A text. -/
  | str (text : String)
  /-- A bare address. -/
  | pointer (a : Address)
  /-- An array. -/
  | array (elements : Elements)
  /-- A handle. -/
  | handle (h : HandleId)
  /-- A loaded namespace. -/
  | library (name version : String)
  deriving DecidableEq, Repr

namespace Value

/-- The name of the type of a value. -/
def typeName : Value → String
  | nil => "nil"
  | int _ => "integer"
  | real _ => "real"
  | str _ => "string"
  | pointer _ => "pointer"
  | array _ => "array"
  | handle _ => "handle"
  | library _ _ => "namespace"

/-- Whether a value is the absent one. -/
def isNil : Value → Bool
  | nil => true
  | _ => false

/-- The value as an integer, a real number losing its fraction. -/
def toInt? : Value → Option Int64
  | int n => some n
  | real r => some r.toInt64
  | _ => none

/-- The value as a real number. -/
def toReal? : Value → Option Real64
  | int n => some (Real64.ofInt n.toInt)
  | real r => some r
  | _ => none

/-- The text of a value that is one. -/
def text? : Value → Option String
  | str text => some text
  | _ => none

end Value

/-- An argument of an evaluation. -/
inductive Argument where
  /-- A value in its position. -/
  | value (v : Value)
  /-- A value with a name. -/
  | keyword (name : String) (v : Value)
  /-- A name that is not evaluated. -/
  | symbol (name : String)
  /-- The name of a global that receives a value. -/
  | output (name : String)
  deriving DecidableEq, Repr

namespace Argument

/-- The word for an argument in messages. -/
def word : Argument → String
  | value v => v.typeName
  | keyword _ _ => "keyword"
  | symbol _ => "symbol"
  | output _ => "output reference"

/-- The name that an argument gives, if it is one. -/
def name? : Argument → Option String
  | value (.str text) => some text
  | symbol name => some name
  | _ => none

end Argument

end ObjectBridge
