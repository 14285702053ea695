import ObjectBridge.Text.Quoted

/-!
# Sets of flags

A flag set is a word of 32 bits; a named flag is a word as well, usually with a single bit.
-/

namespace ObjectBridge

/-- A set of flags. -/
structure FlagSet where
  /-- The bits of the flags that are set. -/
  bits : UInt32
  deriving DecidableEq, Repr, Inhabited

namespace FlagSet

/-- The set without flags. -/
def empty : FlagSet := ⟨0⟩

/-- Whether every flag of another set is set. -/
def contains (s other : FlagSet) : Bool :=
  s.bits &&& other.bits = other.bits

/-- The flags of either set. -/
def union (s other : FlagSet) : FlagSet :=
  ⟨s.bits ||| other.bits⟩

/-- The flags of a set without those of another. -/
def without (s other : FlagSet) : FlagSet :=
  ⟨s.bits &&& ~~~other.bits⟩

/-- The names, quoted and between braces, of those of the given flags that are set. -/
def render (names : List (String × FlagSet)) (s : FlagSet) : String :=
  let present := names.filter fun flag => s.contains flag.2
  "\x7b" ++ ", ".intercalate (present.map fun flag => Text.quote flag.1) ++ "\x7d"

end FlagSet

namespace CallableFlag

/-- The callable takes an instance as its receiver. -/
def method : FlagSet := ⟨1⟩

/-- The callable may fail. -/
def fails : FlagSet := ⟨32⟩

/-- The flags of a callable and their names. -/
def names : List (String × FlagSet) :=
  [("IS_METHOD", method), ("IS_CONSTRUCTOR", ⟨2⟩), ("IS_GETTER", ⟨4⟩), ("IS_SETTER", ⟨8⟩),
    ("WRAPS_VFUNC", ⟨16⟩), ("THROWS", fails)]

end CallableFlag

namespace PropertyFlag

/-- The property can be read. -/
def readable : FlagSet := ⟨1⟩

/-- The property can be written. -/
def writable : FlagSet := ⟨2⟩

/-- The property is set while its instance is constructed. -/
def construct : FlagSet := ⟨4⟩

/-- The property can only be set while its instance is constructed. -/
def constructOnly : FlagSet := ⟨8⟩

/-- The flags of a property and their names. -/
def names : List (String × FlagSet) :=
  [("READABLE", readable), ("WRITABLE", writable), ("CONSTRUCT", construct),
    ("CONSTRUCT_ONLY", constructOnly)]

end PropertyFlag

end ObjectBridge
