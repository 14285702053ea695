import ObjectBridge.Library
import ObjectBridge.Listing
import ObjectBridge.Proofs.Declaring
import ObjectBridge.Proofs.Resolving
import ObjectBridge.Proofs.Revealing

/-!
# Listing and lookup

A listing goes through the entries of a namespace, or through the members of a type group by group.
A lookup goes through the same entries until one has the name that is asked for.  So what is listed
under a name is found under it, and the first one that is listed is the one that is found.
-/

namespace ObjectBridge

namespace Database

variable {db : Database} {t : Nat} {e : Entry} {tokens : List Token} {home name : String}
  {group : MemberGroup}

/-- The entries of some tokens, each with its token. -/
def rows (db : Database) (tokens : List Token) : List (Token × Entry) :=
  tokens.filterMap fun t => (db.entry? t).map fun e => (t, e)

end Database

open Program Descriptor

variable {v : World} {t : Nat} {e : Entry} {group : MemberGroup} {home name : String}

namespace Program

variable {α γ : Type}

end Program

namespace Library

end Library

namespace Listing

end Listing

namespace Member

variable {m : Token}

/-- Whether a name that is listed under a group is found as the given member of the group, or as one
of a category that goes before it, in the order of methods, properties and fields. -/
def Within (name : String) (m : Token) : MemberGroup → Member → Prop
  | .method, x => x = method m
  | .property, x => x = property m name ∨ ∃ n, x = method n
  | .field, x => x = field m name ∨ (∃ n spelling, x = property n spelling) ∨ ∃ n, x = method n
  | _, _ => False

/-- The groups whose members are looked up by name on types with instances. -/
def searched : List MemberGroup := [.method, .property, .field]

/-- Whether a kind is that of an object, an interface or a record type. -/
def HasGroups (kind : EntryKind) : Prop :=
  kind = .object ∨ kind = .interface ∨ kind.isRecord = true

theorem HasGroups.isEnumeration {kind : EntryKind} (groups : HasGroups kind) :
    kind.isEnumeration = false := by
  rcases groups with rfl | rfl | record
  · rfl
  · rfl
  · cases kind <;> first | rfl | cases record

end Member

end ObjectBridge
