import ObjectBridge.Proofs.Ancestry
import ObjectBridge.Proofs.Finding
import ObjectBridge.Proofs.Lookup
import ObjectBridge.Session.Run

/-!
# What names mean on types

Looking a member up finds the one that the database determines: methods and signals are those of
the nearest type that declares them, properties and fields those of the type itself.  So a method or
a signal of a type is there on every descendant, while a property or a field has to be declared
again.
-/

namespace ObjectBridge

open Program

variable {v : World} {t : Nat} {e : Entry} {group : MemberGroup} {name : String}

namespace Descriptor

theorem finds_take {t : Option Token} : Finds (take t) v (· = t) := by
  cases t with
  | none => exact finds_pure rfl
  | some t => exact finds_hold.bind fun _ _ => finds_pure rfl

/-- Giving back the entry that was claimed just before. -/
theorem passes_letGo (calls : Calls) (w : World) (t : Token) :
    ∃ w', (letGo (.entry t)).Passes calls (w.withStore (w.store.hold (.entry t))) () w'
      ∧ w.Looked w' := by
  let stage : Stage := ⟨calls, fun _ _ _ _ => [], fun _ _ _ => [], fun _ _ _ => [], fun _ _ => []⟩
  obtain ⟨w', ends, reading⟩ := ends_letGo stage w t
  have quiet : (letGo (.entry t)).Quiet calls (w.withStore (w.store.hold (.entry t))) :=
    quiet_request rfl
  have passes : (letGo (.entry t)).Passes calls (w.withStore (w.store.hold (.entry t))) () w' :=
    ⟨ends.run, quiet⟩
  exact ⟨w', passes, (w.steady_withStore _).trans passes.steady, [], reading⟩

/-- Trying entries one after the other finds the first of the name. -/
theorem finds_firstNamed {entries : List Token} (known : ∀ t ∈ entries, v.database.Has t) :
    Finds (firstNamed name entries) v (· = entries.find? (v.database.hasName name)) := by
  induction entries with
  | nil => exact finds_pure rfl
  | cons t rest ih =>
    intro calls w looked
    obtain ⟨e, found⟩ := (known t List.mem_cons_self).entry
    have named : v.database.hasName name t = decide (e.name = some name) := by
      rw [Database.hasName, found]
    have claims : (hold (.entry t)).Passes calls w () (w.withStore (w.store.hold (.entry t))) :=
      passes_request rfl rfl
    have looks : (entry t).Passes calls (w.withStore (w.store.hold (.entry t))) e
        (w.withStore (w.store.hold (.entry t))) :=
      passes_request rfl (by simp [World.answer, World.withStore, looked.database, found])
    rw [firstNamed, List.find?_cons, named]
    by_cases here : e.name = some name
    · refine ⟨some t, _, claims.bind (looks.bind ?_), ⟨w.steady_withStore _, _, w.reading_hold t⟩,
        by simp [here]⟩
      rw [if_pos here]
      exact passes_pure
    · obtain ⟨w₁, goes, looked₁⟩ := passes_letGo calls w t
      obtain ⟨x, w₂, passes, looked₂, same⟩ :=
        ih (fun u member => known u (List.mem_cons_of_mem t member)) calls w₁ (looked.trans looked₁)
      refine ⟨x, w₂, claims.bind (looks.bind ?_), looked₁.trans looked₂, by simpa [here] using same⟩
      rw [if_neg here]
      exact goes.bind passes

theorem finds_member (linked : v.database.Linked) (known : v.database.Has t) :
    Finds (member? group name t) v (· = v.database.ownMember? group name t) := by
  obtain ⟨e, found⟩ := known.entry
  rw [Database.ownMember?_eq found]
  refine (finds_entry found).next (finds_firstNamed fun m member => ?_)
  obtain ⟨row, there, rfl⟩ := List.mem_map.mp member
  exact linked.members t e found row (List.mem_filter.mp there).1

/-- A walk finds the member that the nearest type declares. -/
theorem finds_walkWithin (linked : v.database.Linked) {limit : Nat} (known : v.database.Has t)
    (far : t < limit) :
    Finds (walkWithin Descriptor.claims (member? group name) limit t) v
      (v.database.Nearest group name t) := by
  induction limit generalizing t with
  | zero => exact absurd far (Nat.not_lt_zero t)
  | succ limit ih =>
    refine (finds_member linked known).bind fun found declared => ?_
    cases found with
    | some m => exact finds_pure (.own declared.symm)
    | none =>
      obtain ⟨e, found⟩ := known.entry
      refine (finds_entry found).next ?_
      split
      · next root =>
        refine finds_pure (.nowhere declared.symm fun p ⟨f, found', parent⟩ => ?_)
        rw [found] at found'
        cases found'
        cases root.symm.trans parent
      · next p up =>
        have parent : v.database.Parent t p := ⟨e, found, up⟩
        obtain ⟨there, below⟩ := linked.parent parent
        refine Finds.region (finds_hold.bind fun _ _ => finds_trace.bind fun _ _ => ?_)
        exact (ih there (by omega)).weaken fun _ nearest => .inherited declared.symm parent nearest

theorem finds_walk (linked : v.database.Linked) (known : v.database.Has t) :
    Finds (walk Descriptor.claims (member? group name) t) v (v.database.Nearest group name t) :=
  finds_walkWithin linked known (Nat.lt_succ_self t)

end Descriptor

namespace Member

open Descriptor

/-- A member that an entry declares itself, under its own spelling or else with hyphens. -/
def declared? (db : Database) (group : MemberGroup) (name : String) (t : Token) :
    Option (Token × String) :=
  match db.ownMember? group name t with
  | some m => some (m, name)
  | none =>
    match hyphenate? name with
    | none => none
    | some hyphenated => (db.ownMember? group hyphenated t).map fun m => (m, hyphenated)

/-- What a name means on an object type. -/
inductive Means (db : Database) (t : Token) (name : String) : Except Failure Member → Prop
  /-- The nearest method. -/
  | method {m : Token} (found : db.Nearest .method name t (some m)) : Means db t name (.ok (.method m))
  /-- A property of the type itself. -/
  | property {m : Token} {spelling : String} (noMethod : db.Nearest .method name t none)
      (found : declared? db .property name t = some (m, spelling)) :
      Means db t name (.ok (.property m spelling))
  /-- A field of the type itself. -/
  | field {m : Token} {spelling : String} (noMethod : db.Nearest .method name t none)
      (noProperty : declared? db .property name t = none)
      (found : declared? db .field name t = some (m, spelling)) :
      Means db t name (.ok (.field m spelling))
  /-- The nearest signal. -/
  | signal {m : Token} {wanted : String} (noMethod : db.Nearest .method name t none)
      (noProperty : declared? db .property name t = none)
      (noField : declared? db .field name t = none) (asked : signalName? name = some wanted)
      (found : db.Nearest .signal wanted t (some m)) : Means db t name (.ok (.signal m))
  /-- There is no signal of the name. -/
  | noSignal {wanted : String} (noMethod : db.Nearest .method name t none)
      (noProperty : declared? db .property name t = none)
      (noField : declared? db .field name t = none) (asked : signalName? name = some wanted)
      (absent : db.Nearest .signal wanted t none) : Means db t name (.error (.signalNotFound wanted))
  /-- There is no member of the name. -/
  | nothing (noMethod : db.Nearest .method name t none)
      (noProperty : declared? db .property name t = none)
      (noField : declared? db .field name t = none) (unasked : signalName? name = none) :
      Means db t name (.error (.noMember name))

/-- A member is declared under the spelling with which it is found. -/
theorem ownMember?_of_declared {db : Database} {m : Token} {spelling : String}
    (found : declared? db group name t = some (m, spelling)) :
    db.ownMember? group spelling t = some m := by
  unfold declared? at found
  split at found
  · next own =>
    cases found
    exact own
  · split at found
    · cases found
    · obtain ⟨_, own, same⟩ := Option.map_eq_some_iff.mp found
      cases same
      exact own

theorem finds_findMethod (linked : v.database.Linked) (found : v.database.entry? t = some e)
    (object : e.kind = .object) :
    Finds (findMethod t name) v (v.database.Nearest .method name t) := by
  refine (finds_entry found).next ?_
  rw [if_pos object]
  exact finds_walk linked (Database.has_of_entry found)

theorem finds_findSignal (linked : v.database.Linked) (known : v.database.Has t) :
    Finds (findSignal t name) v (v.database.Nearest .signal name t) :=
  finds_walk linked known

theorem finds_findEither (linked : v.database.Linked) (known : v.database.Has t) :
    Finds (findEither group t name) v (· = declared? v.database group name t) := by
  refine (finds_member linked known).bind fun found own => ?_
  rw [declared?, ← own]
  cases found with
  | some m => exact finds_pure rfl
  | none =>
    cases hyphenate? name with
    | none => exact finds_pure rfl
    | some hyphenated =>
      refine (finds_member linked known).bind fun found own => ?_
      dsimp only
      rw [← own]
      cases found <;> exact finds_pure rfl

theorem finds_findProperty (linked : v.database.Linked) (found : v.database.entry? t = some e) :
    Finds (findProperty t name) v fun r => r =
      if e.kind = .object || e.kind = .interface then declared? v.database .property name t
      else none := by
  refine (finds_entry found).next ?_
  split
  · exact finds_findEither linked (Database.has_of_entry found)
  · exact finds_pure rfl

theorem finds_findField (linked : v.database.Linked) (found : v.database.entry? t = some e) :
    Finds (findField t name) v fun r => r =
      if e.kind = .object || e.kind.isRecord then declared? v.database .field name t else none := by
  refine (finds_entry found).next ?_
  split
  · exact finds_findEither linked (Database.has_of_entry found)
  · exact finds_pure rfl

/-- What is found for a name, signals aside. -/
theorem finds_findPlain (linked : v.database.Linked) (found : v.database.entry? t = some e)
    (object : e.kind = .object) :
    Finds (findPlain e.kind t name) v fun r =>
      match r with
      | some member => Means v.database t name (.ok member)
      | none => v.database.Nearest .method name t none
          ∧ declared? v.database .property name t = none
          ∧ declared? v.database .field name t = none := by
  unfold findPlain
  rw [if_pos (by simp [object])]
  refine (finds_findMethod linked found object).bind fun method nearest => ?_
  cases method with
  | some m => exact finds_pure (.method nearest)
  | none =>
    refine (finds_findProperty linked found).bind fun property own => ?_
    rw [if_pos (by simp [object])] at own
    match property, own with
    | some (m, spelling), own => exact finds_pure (.property nearest own.symm)
    | none, noProperty =>
      refine (finds_findField linked found).bind fun field own => ?_
      rw [if_pos (by simp [object])] at own
      match field, own with
      | some (m, spelling), own => exact finds_pure (.field nearest noProperty.symm own.symm)
      | none, noField => exact finds_pure ⟨nearest, noProperty.symm, noField.symm⟩

/-- A name is resolved on an object type as the database determines. -/
theorem finds_resolve (linked : v.database.Linked) (found : v.database.entry? t = some e)
    (object : e.kind = .object) :
    Bridge.Finds (resolve t name) v (Means v.database t name) := by
  have known := Database.has_of_entry found
  refine .region <| Bridge.Finds.next (finds_entry found) ?_
  refine Bridge.Finds.after finds_trace fun _ _ => ?_
  have plain : e.kind.isEnumeration = false := by simp [object, EntryKind.isEnumeration]
  rw [if_neg (by simp [plain])]
  refine Bridge.Finds.after (finds_findPlain linked found object) fun r nearest => ?_
  cases r with
  | some member => exact Bridge.finds_pure nearest
  | none =>
    obtain ⟨noMethod, noProperty, noField⟩ := nearest
    dsimp only
    rw [if_pos object]
    cases asked : signalName? name with
    | none => exact Bridge.finds_throw (.nothing noMethod noProperty noField asked)
    | some wanted =>
      refine Bridge.Finds.after (finds_findSignal linked known) fun signal nearest => ?_
      cases signal with
      | some m => exact Bridge.finds_pure (.signal noMethod noProperty noField asked nearest)
      | none => exact Bridge.finds_throw (.noSignal noMethod noProperty noField asked nearest)

/-- Resolving a name on an entry gives a member. -/
def Resolves (calls : Calls) (w : World) (t : Token) (name : String) (member : Member) : Prop :=
  ((resolve t name).run.run calls w).1 = .done (.ok member)

instance (calls : Calls) (w : World) (member : Member) : Decidable (Resolves calls w t name member) :=
  inferInstanceAs (Decidable (_ = _))

/-- What makes a name resolve on an object type: a method of the type or of an ancestor, a property
or a field of the type itself, or a signal of the type or of an ancestor. -/
def Offered (db : Database) (t : Token) (name : String) : Prop :=
  (∃ m, db.Nearest .method name t (some m))
    ∨ (declared? db .property name t).isSome
    ∨ (declared? db .field name t).isSome
    ∨ ∃ wanted m, signalName? name = some wanted ∧ db.Nearest .signal wanted t (some m)

theorem Means.offered {db : Database} {member : Member}
    (means : Means db t name (.ok member)) : Offered db t name := by
  generalize same : Except.ok member = r at means
  cases means with
  | method found => exact .inl ⟨_, found⟩
  | property _ found => exact .inr (.inl (by rw [found]; rfl))
  | field _ _ found => exact .inr (.inr (.inl (by rw [found]; rfl)))
  | signal _ _ _ asked found => exact .inr (.inr (.inr ⟨_, _, asked, found⟩))
  | noSignal => cases same
  | nothing => cases same

/-- A name that is offered means a member. -/
theorem Means.of_offered {db : Database} {r : Except Failure Member} (means : Means db t name r)
    (offered : Offered db t name) : ∃ member, r = .ok member := by
  have absent (noMethod : db.Nearest .method name t none)
      (noProperty : declared? db .property name t = none)
      (noField : declared? db .field name t = none)
      (noSignal : ∀ wanted m, signalName? name = some wanted →
        ¬db.Nearest .signal wanted t (some m)) : False := by
    rcases offered with ⟨m, found⟩ | found | found | ⟨wanted, m, asked, found⟩
    · cases found.unique noMethod
    · simp [noProperty] at found
    · simp [noField] at found
    · exact noSignal wanted m asked found
  cases means with
  | method _ | property _ _ | field _ _ _ | signal _ _ _ _ _ => exact ⟨_, rfl⟩
  | noSignal noMethod noProperty noField asked missing =>
    refine (absent noMethod noProperty noField fun wanted m asked' found => ?_).elim
    cases asked.symm.trans asked'
    cases found.unique missing
  | nothing noMethod noProperty noField unasked =>
    exact (absent noMethod noProperty noField fun wanted m asked _ => by
      cases unasked.symm.trans asked).elim

/-- Resolving a name on an object type ends with what the name means. -/
theorem means_of_resolve (calls : Calls) {w : World} (linked : w.database.Linked)
    (found : w.database.entry? t = some e) (object : e.kind = .object) (name : String) :
    ∃ r, ((resolve t name).run.run calls w).1 = .done r ∧ Means w.database t name r := by
  obtain ⟨r, w', passes, _, means⟩ := finds_resolve linked found object calls w (.refl w)
  exact ⟨r, congrArg Prod.fst passes.run, means⟩

theorem Resolves.means {calls : Calls} {w : World} (linked : w.database.Linked)
    (found : w.database.entry? t = some e) (object : e.kind = .object) {member : Member}
    (resolves : Resolves calls w t name member) : Means w.database t name (.ok member) := by
  obtain ⟨r, ended, means⟩ := means_of_resolve calls linked found object name
  cases resolves.symm.trans ended
  exact means

theorem resolves_iff_offered (calls : Calls) {w : World} (linked : w.database.Linked)
    (found : w.database.entry? t = some e) (object : e.kind = .object) :
    (∃ member, Resolves calls w t name member) ↔ Offered w.database t name := by
  constructor
  · rintro ⟨member, resolves⟩
    exact (resolves.means linked found object).offered
  · intro offered
    obtain ⟨r, ended, means⟩ := means_of_resolve calls linked found object name
    obtain ⟨member, rfl⟩ := means.of_offered offered
    exact ⟨member, ended⟩

/-- A name that resolves on an object type to a method does so on every descendant, and one that
resolves to a signal resolves to something there.  Otherwise a name resolves on the descendant
exactly if it is offered there, and a property or a field is only offered by the type itself. -/
theorem resolve_inherited (calls : Calls) {w : World} (built : w.database.Built)
    {base descendant : Token} {e : Entry} (found : w.database.entry? base = some e)
    (object : e.kind = .object) (descends : w.database.Descends descendant base) (name : String) :
    (∀ m, Resolves calls w base name (.method m) →
        ∃ m', Resolves calls w descendant name (.method m'))
      ∧ (∀ m, Resolves calls w base name (.signal m) →
        ∃ member, Resolves calls w descendant name member)
      ∧ ((∃ member, Resolves calls w descendant name member)
        ↔ Offered w.database descendant name) := by
  have linked := built.sound.toLinked
  obtain ⟨f, found', object'⟩ := descends.object found object
  refine ⟨fun m resolves => ?_, fun m resolves => ?_,
    resolves_iff_offered calls linked found' object'⟩
  · cases resolves.means linked found object with
    | method nearest =>
      obtain ⟨m', nearest'⟩ := nearest.descend descends
      obtain ⟨r, ended, means⟩ := means_of_resolve calls linked found' object' name
      -- A nearer method goes before everything else that the descendant offers.
      cases means with
      | method _ => exact ⟨_, ended⟩
      | property noMethod _ | field noMethod _ _ | signal noMethod _ _ _ _
      | noSignal noMethod _ _ _ _ | nothing noMethod _ _ _ => cases nearest'.unique noMethod
  · cases resolves.means linked found object with
    | signal _ _ _ asked nearest =>
      obtain ⟨m', nearest'⟩ := nearest.descend descends
      exact (resolves_iff_offered calls linked found' object').mpr
        (.inr (.inr (.inr ⟨_, m', asked, nearest'⟩)))

/-- An object type with a property and a method, and a type that descends from it. -/
def sampleDatabase : Database :=
  let base := (({} : Database).addObject "Demo" "Base" none false).2
  let child := (base.addObject "Demo" "Child" (some 1) false).2
  let typed := (child.addType (.plain .int32)).2
  let wide := (typed.addProperty 1 "width" 3 (PropertyFlag.readable.union PropertyFlag.writable)).2
  (wide.addMethod 1 "draw" CallableFlag.method [] none).2

theorem sampleDatabase_built : sampleDatabase.Built := by
  refine .next (.next (.next (.next (.next .empty (.object "Demo" "Base" false ?_))
    (.object "Demo" "Child" false ?_)) (.type ?_)) (.property "width" _ ?_ ?_))
    (.method "draw" CallableFlag.method ?_ ?_ ?_)
  all_goals decide

theorem sampleDatabase_base : ∃ e, sampleDatabase.entry? 1 = some e ∧ e.kind = .object := by
  have kind : (sampleDatabase.entry? 1).map Entry.kind = some .object := by decide +kernel
  exact Option.map_eq_some_iff.mp kind

theorem sampleDatabase_descends : sampleDatabase.Descends 2 1 := by
  have parent : (sampleDatabase.entry? 2).bind Entry.parent? = some 1 := by decide +kernel
  exact .single (Option.bind_eq_some_iff.mp parent)

theorem resolve_inherited_sample :
    ∃ m, Resolves (Session.calls 0) { database := sampleDatabase } 2 "draw" (.method m) := by
  obtain ⟨e, found, object⟩ := sampleDatabase_base
  exact (resolve_inherited (Session.calls 0) (w := { database := sampleDatabase })
    sampleDatabase_built found object sampleDatabase_descends "draw").1 5 (by decide +kernel)

/-- A property that an object type declares does not resolve on a type that descends from it. -/
theorem property_not_inherited :
    ¬∀ (w : World) (base descendant : Token) (e : Entry) (name : String) (member : Member),
      w.database.Built → w.database.entry? base = some e → e.kind = .object →
      w.database.Descends descendant base → Resolves (Session.calls 0) w base name member →
      ∃ member', Resolves (Session.calls 0) w descendant name member' := by
  intro inherited
  obtain ⟨e, found, object⟩ := sampleDatabase_base
  obtain ⟨member, resolves⟩ := inherited { database := sampleDatabase } 1 2 e "width"
    (.property 4 "width") sampleDatabase_built found object sampleDatabase_descends
    (by decide +kernel)
  have failed : ((resolve 2 "width").run.run (Session.calls 0) { database := sampleDatabase }).1
      = .done (.error (.noMember "width")) := by decide +kernel
  cases resolves.symm.trans failed

end Member
end ObjectBridge
