import ObjectBridge.Handle.Access

/-!
# Listings

A listing shows what a type declares, section by section, and for a handle with an instance also
where the instance lies and what its runtime type is.
-/

namespace ObjectBridge

/-- A section of a listing. -/
structure ListingSection where
  /-- The group of the members. -/
  group : MemberGroup
  /-- The members, in order. -/
  items : List String
  deriving DecidableEq, Repr

/-- The listing of a type or of a handle. -/
structure Listing where
  /-- The name of the type with its namespace. -/
  title : String
  /-- The kind of the type. -/
  kind : EntryKind
  /-- The address of the instance. -/
  instanceText : Option String := none
  /-- The name of the runtime type of the instance. -/
  runtimeType : Option String := none
  /-- The sections. -/
  sections : List ListingSection
  /-- The name of the parent of an object type. -/
  parent : Option String
  deriving DecidableEq, Repr

namespace Listing

open Program Descriptor

/-- The groups that a listing of a kind shows, in order. -/
def groupsFor (kind : EntryKind) : List MemberGroup :=
  match kind with
  | .enum | .flags => [.value, .method]
  | .object => [.field, .property, .method, .signal, .vfunc, .constant]
  | .interface => [.property, .method, .signal, .vfunc, .constant]
  | .struct | .boxed | .union => [.field, .method]
  | _ => []

/-- How a member is written. -/
def itemText (group : MemberGroup) (e : Entry) : String :=
  if group = .value then e.shownName ++ " = " ++ toString e.enumValue.toInt else e.shownName

/-- A section of the listing of a type. -/
def readSection (t : Token) (group : MemberGroup) : Program ListingSection := do
  let members ← memberEntries group t
  return ⟨group, members.map (itemText group)⟩

/-- The name of the parent of an object type. -/
def parentName (t : Token) (kind : EntryKind) : Program (Option String) :=
  if kind = .object then
    region keepNothing do
      match ← parent? t with
      | some parent => do
        let name ← qualifiedName parent
        return some name
      | none => return none
  else return none

/-- The listing of a type. -/
def describe (t : Token) : Program Listing := do
  let e ← entry t
  let sections ← each (readSection t) (groupsFor e.kind)
  let name ← qualifiedName t
  let parent ← parentName t e.kind
  return { title := name, kind := e.kind, sections := sections, parent := parent }

/-- The listing of a handle. -/
def ofHandle (h : HandleId) : Bridge Listing := do
  let r ← handleRecord h
  let info ← Handle.typed r
  let listing ← describe info
  if !r.isBound then return listing
  let s ← store
  let runtimeType ←
    if s.isLive r.address then do
      let i ← liveInstance r.address
      let db ← database
      pure (db.typeName? i.number)
    else pure none
  return { listing with
    instanceText := some ("0x" ++ Text.hexDigits r.address)
    runtimeType := runtimeType }

/-- The lines of a section. -/
def sectionLines (s : ListingSection) : List String :=
  (toString s.items.length ++ " " ++ s.group.heading) :: s.items.map ("  " ++ ·)

/-- The lines of a listing. -/
def lines (l : Listing) : List String :=
  [l.title ++ " (" ++ l.kind.name ++ ")"]
    ++ (l.instanceText.map ("with instance at " ++ ·)).toList
    ++ (l.runtimeType.map ("runtime type: " ++ ·)).toList
    ++ l.sections.flatMap sectionLines
    ++ (if l.kind = .object then
          [match l.parent with
           | some parent => "parent: " ++ parent
           | none => "fundamental"]
        else [])

/-- The text of a listing. -/
def text (l : Listing) : String :=
  String.join (l.lines.map (· ++ "\n"))

/-- The number of members of a group, if the listing has a section for it. -/
def count? (l : Listing) (group : MemberGroup) : Option Nat :=
  (l.sections.find? fun s => s.group = group).map fun s => s.items.length

end Listing
end ObjectBridge
