import ObjectBridge.Descriptor

/-!
# Making handles

A handle claims the entry that types it and, if it is retained, a reference to its instance.  The
null address gives a handle without an instance.
-/

namespace ObjectBridge
namespace Handle

open Program

/-- A handle without an instance. -/
def unbound (info : Token) : Program HandleId :=
  request (.openHandle (some info) none none)

/-- A handle with a reference of its own to an instance. -/
def retained (info : Option Token) (a : Address) : Program HandleId :=
  request (.openHandle info (if a = 0 then none else some ⟨a, .retained⟩) none)

/-- A handle without a reference to its instance. -/
def borrowed (info : Option Token) (a : Address) : Program HandleId :=
  request (.openHandle info (if a = 0 then none else some ⟨a, .borrowed⟩) none)

/-- A handle on the instance of another handle, which stays alive as long. -/
def dependent (owner : HandleId) (info : Option Token) (a : Address) : Program HandleId :=
  if a = 0 then request (.openHandle info none none)
  else request (.openHandle info (some ⟨a, .borrowed⟩) (some owner))

/-- A handle on the instance of another handle, with a reference of its own or kept by the other
handle. -/
def derived (owner : HandleId) (info : Option Token) (a : Address) (retain : Bool) :
    Program HandleId :=
  if retain then retained info a else dependent owner info a

/-- The claims of a handle. -/
def claims (h : HandleId) : List Claim := [.handle h]

end Handle
end ObjectBridge
