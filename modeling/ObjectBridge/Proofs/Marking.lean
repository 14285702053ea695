import ObjectBridge.Proofs.Amending

/-!
# Marks given from the start

A mark is given to an entry that is there, and builders read no marks.  So marking an entry and
calling a builder can trade places, down to the call that added the entry, and that call might have
given the mark itself.  Every assembled database can be built without ever marking an entry.
-/

namespace ObjectBridge

/-- A change of contents that only gives marks. -/
inductive Content.Marks : (Content → Content) → Prop
  /-- Nothing changes. -/
  | unchanged : Marks id
  /-- The instances of an object type start out floating. -/
  | floating : Marks floating
  /-- The argument that gives the length of an array type is recorded. -/
  | measured (index : Nat) : Marks (measured index)

namespace Content.Marks

variable {f : Content → Content}

/-- An object type is marked in the same way whatever its type number. -/
theorem object (marks : Marks f) (parent : Option Token) (floating : Bool) :
    ∃ floating', ∀ number, f (.object number parent floating) = .object number parent floating' := by
  cases marks with
  | unchanged => exact ⟨floating, fun _ => rfl⟩
  | floating => exact ⟨true, fun _ => rfl⟩
  | measured index => exact ⟨floating, fun _ => rfl⟩

/-- A marked form of types refers to the same entries. -/
theorem form (marks : Marks f) (form : TypeForm) :
    ∃ form', f (.type form) = .type form' ∧ form'.references = form.references := by
  cases marks with
  | unchanged => exact ⟨form, rfl, rfl⟩
  | floating => exact ⟨form, rfl, rfl⟩
  | measured index =>
    cases form with
    | array element form zeroTerminated fixedSize _ =>
      exact ⟨.array element form zeroTerminated fixedSize (some index), rfl, rfl⟩
    | _ => exact ⟨_, rfl, rfl⟩

/-- Nothing else carries marks. -/
theorem fixed (marks : Marks f) {c : Content}
    (notObject : ∀ number parent floating, c ≠ .object number parent floating)
    (notType : ∀ form, c ≠ .type form) : f c = c := by
  cases c with
  | object number parent floating => exact absurd rfl (notObject number parent floating)
  | type form => exact absurd rfl (notType form)
  | _ => cases marks <;> rfl

end Content.Marks

namespace Database

variable {db later : Database} {t u : Nat} {f : Content → Content} {content content' : Content}
  {made : Token × Database}

/-! ### Marking and adding trade places -/

/-- What becomes of the content of the next entry if an entry is marked afterwards. -/
def markNext (db : Database) (t : Nat) (f : Content → Content) : Content → Content :=
  if t = db.entries.size + 1 then f else id

theorem marks_next (db : Database) (t : Nat) (marks : Content.Marks f) :
    Content.Marks (db.markNext t f) := by
  unfold markNext
  split
  · exact marks
  · exact .unchanged

theorem size_amend (db : Database) (t : Nat) (f : Content → Content) :
    (db.amend t f).entries.size = db.entries.size := by
  unfold amend
  split
  · rfl
  · exact Array.size_modify

theorem has_amend : (db.amend t f).Has u ↔ db.Has u := by
  rw [Has, Has, size_amend]

theorem homeOf_amend (db : Database) (t : Nat) (f : Content → Content) (owner : Token) :
    (db.amend t f).homeOf owner = db.homeOf owner := by
  simp only [homeOf, entry?_amend]
  by_cases own : owner = t
  · rw [if_pos own]
    cases db.entry? owner <;> rfl
  · rw [if_neg own]

/-- Marking and a change of what is not an entry trade places. -/
theorem amend_outside (db : Database) (t : Nat) (f : Content → Content)
    (next : TypeNumber → TypeNumber) (catalog : Catalog → Catalog)
    (path : List String → List String) :
    Database.amend { db with
      nextNumber := next db.nextNumber
      catalog := catalog db.catalog
      searchPath := path db.searchPath } t f
      = { db.amend t f with
          nextNumber := next (db.amend t f).nextNumber
          catalog := catalog (db.amend t f).catalog
          searchPath := path (db.amend t f).searchPath } := by
  unfold amend
  split <;> rfl

theorem amend_assume (db : Database) (t : Nat) (f : Content → Content) (home : String) :
    Database.amend { db with catalog := db.catalog.assume home } t f
      = { db.amend t f with catalog := (db.amend t f).catalog.assume home } :=
  db.amend_outside t f id (·.assume home) id

/-- There is no entry of the next token to be marked. -/
theorem amend_next (db : Database) (f : Content → Content) :
    db.amend (db.entries.size + 1) f = db := by
  have none : db.entries.modify db.entries.size (fun e => { e with content := f e.content })
      = db.entries := by
    refine Array.ext Array.size_modify fun i _ below => ?_
    have other : db.entries.size ≠ i := by omega
    rw [Array.getElem_modify, if_neg other]
  simp only [amend, Nat.add_one_ne_zero, if_false, Nat.add_one_sub_one, none]

theorem push_amend (e : Entry) (marked : db.markNext t f e.content = content') :
    (db.amend t f).push { e with content := content' }
      = ((db.push e).1, (db.push e).2.amend t f) := by
  subst marked
  by_cases next : t = db.entries.size + 1
  · subst next
    rw [amend_next, markNext, if_pos rfl]
    exact Prod.ext rfl (db.amend_push e f).symm
  · rw [markNext, if_neg next]
    refine Prod.ext (congrArg (· + 1) (db.size_amend t f)) ?_
    by_cases zero : t = 0
    · simp only [push, amend, zero, if_true, id]
    · have older : (db.entries.push e).modify (t - 1) (fun e => { e with content := f e.content })
          = (db.entries.modify (t - 1) fun e => { e with content := f e.content }).push e := by
        refine Array.ext (by simp) fun i _ below => ?_
        simp only [Array.getElem_modify, Array.getElem_push, Array.size_modify]
        by_cases old : i < db.entries.size
        · simp only [old, dif_pos]
        · have last : i < db.entries.size + 1 := by simpa using below
          have other : t - 1 ≠ i := by omega
          simp only [old, other, dif_neg, if_neg, not_false_eq_true]
      simp only [push, amend, zero, if_false, older, id]

theorem addMember_amend (db : Database) (t : Nat) (f : Content → Content) (owner : Token)
    (group : MemberGroup) (m : Token) :
    (db.amend t f).addMember owner group m = (db.addMember owner group m).amend t f := by
  by_cases zero : t = 0
  · simp only [amend, zero, if_true]
  · by_cases none : owner = 0
    · simp only [addMember, none, if_true]
    · simp only [amend, addMember, zero, none, if_false, Database.mk.injEq, and_true]
      refine Array.ext (by simp) fun i _ _ => ?_
      simp only [Array.getElem_modify]
      split <;> split <;> rfl

theorem addTopLevel_amend (home name : String) (marked : db.markNext t f content = content') :
    (db.amend t f).addTopLevel home name content'
      = ((db.addTopLevel home name content).1,
          (db.addTopLevel home name content).2.amend t f) := by
  let base : Database := { db with catalog := db.catalog.assume home }
  have added := base.push_amend
    { name := some name, home := some home, topLevel := true, content := content } marked
  rwa [amend_assume] at added

theorem addNumbered_amend (home name : String) (number : TypeNumber)
    (marked : db.markNext t f content = content') :
    (db.amend t f).addNumbered home name number content'
      = ((db.addNumbered home name number content).1,
          (db.addNumbered home name number content).2.amend t f) := by
  simp only [addNumbered, addTopLevel_amend home name marked, amend_register]

theorem addRegistered_amend (home name : String) {c c' : TypeNumber → Content}
    (marked : ∀ number, db.markNext t f (c number) = c' number) :
    (db.amend t f).addRegistered home name c'
      = ((db.addRegistered home name c).1, (db.addRegistered home name c).2.amend t f) := by
  let base : Database := { db with nextNumber := db.nextNumber + 1 }
  have counted : base.amend t f
      = { db.amend t f with nextNumber := (db.amend t f).nextNumber + 1 } :=
    db.amend_outside t f (· + 1) id id
  have number : (db.amend t f).nextNumber = db.nextNumber := by
    unfold amend
    split <;> rfl
  have added := base.addNumbered_amend home name db.nextNumber (marked db.nextNumber)
  rw [counted, number] at added
  simpa only [addRegistered, number] using added

theorem addOwned_amend (owner : Token) (group : MemberGroup) (name : String)
    (marked : db.markNext t f content = content') :
    (db.amend t f).addOwned owner group name content'
      = ((db.addOwned owner group name content).1,
          (db.addOwned owner group name content).2.amend t f) := by
  have added := db.push_amend
    { name := some name, home := some (db.homeOf owner), content := content } marked
  simp only [addOwned, homeOf_amend, added, addMember_amend]

theorem addArguments_amend (db : Database) (t : Nat) (marks : Content.Marks f) (home : String)
    (parameters : List Parameter) :
    (db.amend t f).addArguments home parameters
      = ((db.addArguments home parameters).1, (db.addArguments home parameters).2.amend t f) := by
  induction parameters generalizing db with
  | nil => rfl
  | cons p rest ih =>
    have added := db.push_amend (t := t)
      { name := some p.name, home := some home, content := .argument p.passing p.type }
      ((db.marks_next t marks).fixed nofun nofun)
    simp only [addArguments, added, ih]

theorem addValues_amend (db : Database) (t : Nat) (marks : Content.Marks f) (owner : Token)
    (home : String) (values : List (String × Int64)) :
    (db.amend t f).addValues owner home values = (db.addValues owner home values).amend t f := by
  induction values generalizing db with
  | nil => rfl
  | cons value rest ih =>
    have added := db.push_amend (t := t)
      { name := some value.1, home := some home, content := .value value.2 }
      ((db.marks_next t marks).fixed nofun nofun)
    simp only [addValues, added, addMember_amend, ih]

/-! ### Marks and calls of builders -/

theorem Builds.of_eq {made' : Token × Database} (call : db.Builds made) (same : made = made') :
    db.Builds made' :=
  same ▸ call

/-- A builder that is called after an entry was marked makes what it makes before that, marked: the
entry that gets the mark may be the one that the builder adds. -/
theorem Builds.amend (call : db.Builds made) (t : Nat) (marks : Content.Marks f) :
    (db.amend t f).Builds (made.1, made.2.amend t f) := by
  have next : Content.Marks (db.markNext t f) := db.marks_next t marks
  cases call with
  | @object home name parent floating known =>
    obtain ⟨floating', marked⟩ := next.object parent floating
    exact (Builds.object home name floating' fun p given => has_amend.mpr (known p given)).of_eq
      (addRegistered_amend home name marked)
  | interface home name =>
    exact (Builds.interface home name).of_eq
      (addRegistered_amend home name fun _ => next.fixed nofun nofun)
  | struct home name size =>
    exact (Builds.struct home name size).of_eq
      (addRegistered_amend home name fun _ => next.fixed nofun nofun)
  | boxed home name size number =>
    exact (Builds.boxed home name size number).of_eq
      (addNumbered_amend home name number (next.fixed nofun nofun))
  | valueBox home name =>
    exact (Builds.valueBox home name).of_eq
      (addNumbered_amend home name valueBoxNumber (next.fixed nofun nofun))
  | enum home name storage values =>
    refine (Builds.enum home name storage values).of_eq ?_
    have added := db.addRegistered_amend (t := t) home name
      (c := fun number => .enum number storage) fun _ => next.fixed nofun nofun
    simp only [addEnum, added, addValues_amend _ t marks]
  | flags home name storage values =>
    refine (Builds.flags home name storage values).of_eq ?_
    have added := db.addRegistered_amend (t := t) home name
      (c := fun number => .flags number storage) fun _ => next.fixed nofun nofun
    simp only [addFlags, added, addValues_amend _ t marks]
  | callback home name =>
    exact (Builds.callback home name).of_eq
      (addTopLevel_amend home name (next.fixed nofun nofun))
  | @type form known =>
    obtain ⟨form', marked, same⟩ := next.form form
    exact (Builds.type fun u refers => has_amend.mpr (known u (same ▸ refers))).of_eq
      (db.push_amend { name := none, home := none, content := .type form } marked)
  | property name flags own known =>
    exact (Builds.property name flags (has_amend.mpr own) (has_amend.mpr known)).of_eq
      (addOwned_amend _ .property name (next.fixed nofun nofun))
  | field name offset own known =>
    exact (Builds.field name offset (has_amend.mpr own) (has_amend.mpr known)).of_eq
      (addOwned_amend _ .field name (next.fixed nofun nofun))
  | vfunc name own =>
    exact (Builds.vfunc name (has_amend.mpr own)).of_eq
      (addOwned_amend _ .vfunc name (next.fixed nofun nofun))
  | @signal owner result types name own known answer =>
    refine (Builds.signal name (has_amend.mpr own) (fun u given => has_amend.mpr (known u given))
      (has_amend.mpr answer)).of_eq ?_
    -- The signal is not the next entry after the mark: its arguments are added before it.
    simp only [addSignal, homeOf_amend, addArguments_amend _ t marks]
    exact addOwned_amend owner .signal name ((marks_next _ t marks).fixed nofun nofun)
  | constant home name slot known =>
    exact (Builds.constant home name slot (has_amend.mpr known)).of_eq
      (addTopLevel_amend home name (next.fixed nofun nofun))
  | @function home name flags parameters result known answer =>
    refine (Builds.function home name flags (fun p given => has_amend.mpr (known p given))
      fun u given => has_amend.mpr (answer u given)).of_eq ?_
    simp only [addFunction, ← amend_assume, addArguments_amend _ t marks]
    exact addTopLevel_amend home name ((marks_next _ t marks).fixed nofun nofun)
  | @method owner name flags parameters result own known answer =>
    refine (Builds.method name flags (has_amend.mpr own)
      (fun p given => has_amend.mpr (known p given))
      fun u given => has_amend.mpr (answer u given)).of_eq ?_
    simp only [addMethod, homeOf_amend, addArguments_amend _ t marks]
    exact addOwned_amend owner .method name ((marks_next _ t marks).fixed nofun nofun)

/-- A database in which an entry is marked might have been built that way. -/
theorem Built.amend (built : db.Built) (t : Nat) (marks : Content.Marks f) :
    (db.amend t f).Built := by
  induction built with
  | empty =>
    have nothing : Database.amend {} t f = {} := by
      unfold Database.amend
      split <;> rfl
    rw [nothing]
    exact .empty
  | next _ call ih => exact ih.next (call.amend t marks)
  | @named db _ catalog path ih =>
    have renamed := db.amend_outside t f id (fun _ => catalog) fun _ => path
    exact renamed ▸ ih.named catalog path

theorem Edits.built (call : db.Edits later) (built : db.Built) : later.Built := by
  cases call with
  | build call => exact built.next call
  | float known => exact built.amend _ .floating
  | measure index known => exact built.amend _ (.measured index)
  | rename catalog path => exact built.named catalog path

/-- Calls of all kinds make nothing that builders alone do not make. -/
theorem assembled_iff_built : db.Assembled ↔ db.Built := by
  refine ⟨fun assembled => ?_, Built.assembled⟩
  induction assembled with
  | refl => exact .empty
  | tail _ call ih => exact call.built ih

end Database
end ObjectBridge
