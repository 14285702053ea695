import ObjectBridge.Database.Builder

/-!
# Changing entries of the type database

Two calls change what an entry says after it was added: the instances of an object type are made to
start out floating, and the argument that gives the length of an array type is recorded.  An object
type or array type that is added with such a mark is the unmarked one, changed.
-/

namespace ObjectBridge

namespace Content

/-- An object type whose instances start out floating. -/
def floating : Content → Content
  | object number parent _ => object number parent true
  | other => other

/-- An array type whose length is given by the argument at a position. -/
def measured (index : Nat) : Content → Content
  | type (.array element form zeroTerminated fixedSize _) =>
    type (.array element form zeroTerminated fixedSize (some index))
  | other => other

end Content

namespace Database

/-- Change the content of an entry. -/
def amend (db : Database) (t : Token) (f : Content → Content) : Database :=
  if t = 0 then db
  else
    { db with entries := db.entries.modify (t - 1) fun e => { e with content := f e.content } }

/-- Have the instances of an object type start out floating. -/
def setFloating (db : Database) (t : Token) : Database := db.amend t .floating

/-- Record which argument gives the length of an array type. -/
def setLengthIndex (db : Database) (t : Token) (index : Nat) : Database :=
  db.amend t (.measured index)

variable (db : Database)

/-- The newest entry might have been added with its content changed. -/
theorem amend_push (e : Entry) (f : Content → Content) :
    (db.push e).2.amend (db.push e).1 f = (db.push { e with content := f e.content }).2 := by
  have newest : (db.entries.push e).modify db.entries.size
      (fun e => { e with content := f e.content })
        = db.entries.push { e with content := f e.content } := by
    apply Array.ext
    · simp
    · intro i _ below
      simp only [Array.getElem_modify, Array.getElem_push]
      have bound : i < db.entries.size + 1 := by simpa using below
      by_cases old : i < db.entries.size
      · have other : db.entries.size ≠ i := by omega
        simp [old, other]
      · have last : db.entries.size = i := by omega
        simp [last]
  simp only [amend, push, Nat.add_one_ne_zero, if_false, Nat.add_one_sub_one, newest]

/-- The content of an entry does not matter for the type number that it is registered for. -/
theorem amend_register (number : TypeNumber) (t u : Token) (f : Content → Content) :
    (db.register number t).amend u f = (db.amend u f).register number t := by
  have same : (db.amend u f).registered = db.registered := by
    simp only [amend]
    split <;> rfl
  simp only [register, registered?, same]
  split
  · rfl
  · simp only [amend]
    split <;> rfl

/-- A registered type might have been added with its content changed. -/
theorem amend_addRegistered (home name : String) (content : TypeNumber → Content)
    (f : Content → Content) :
    (db.addRegistered home name content).2.amend (db.addRegistered home name content).1 f
      = (db.addRegistered home name fun number => f (content number)).2 := by
  simp only [addRegistered, addNumbered, addTopLevel, amend_register]
  rw [amend_push]
  rfl

/-- An object type with floating instances is another one, changed. -/
theorem addObject_floating (home name : String) (parent : Option Token) :
    db.addObject home name parent true
      = ((db.addObject home name parent false).1,
          (db.addObject home name parent false).2.setFloating
            (db.addObject home name parent false).1) :=
  Prod.ext rfl (db.amend_addRegistered home name (.object · parent false) .floating).symm

/-- An array type with a length in an argument is another one, changed. -/
theorem addType_measured (element : Token) (form : ArrayForm) (zeroTerminated : Bool)
    (fixedSize : Option Nat) (index : Nat) :
    db.addType (.array element form zeroTerminated fixedSize (some index))
      = ((db.addType (.array element form zeroTerminated fixedSize none)).1,
          (db.addType (.array element form zeroTerminated fixedSize none)).2.setLengthIndex
            (db.addType (.array element form zeroTerminated fixedSize none)).1 index) := by
  let plain : Entry :=
    { name := none, home := none
      content := .type (.array element form zeroTerminated fixedSize none) }
  exact Prod.ext rfl (db.amend_push plain (.measured index)).symm

end Database
end ObjectBridge
