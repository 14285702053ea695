import ObjectBridge.Proofs.Agreement
import ObjectBridge.Proofs.Initializers
import ObjectBridge.Proofs.Normalizing

/-!
# What members show

Getting a member looks the member up, reads its slot and decodes it.  Nothing before the decoding
reserves storage, so what is seen of a member is what is seen of its slot in the world where the
search began.
-/

namespace ObjectBridge

open Program Descriptor

/-- What is seen of a program in a world, and in what looking makes of it without new storage. -/
def Bridge.Reveals (p : Bridge Value) (v : World) (o : Outcome (Except Failure Shown)) : Prop :=
  ∀ calls w, v.Looked w → w.memory = v.memory → Displays calls p w o

namespace Bridge

variable {α : Type} {v : World} {o : Outcome (Except Failure Shown)}

theorem Reveals.shown {p : Bridge Value} (reveals : Reveals p v o) (calls : Calls) :
    Bridge.shown calls p v = o :=
  (reveals calls v (.refl v) rfl).shown

/-- What is seen after something that is found. -/
theorem Finds.reveals {q : Bridge α} {g : α → Bridge Value} {x : α}
    (finds : Finds q v (· = .ok x)) (spares : Spares q) (rest : Reveals (g x) v o) :
    Reveals (q >>= g) v o := by
  intro calls w looked memory
  obtain ⟨_, w₁, passes, looked₁, rfl⟩ := finds calls w looked
  have same : w₁.memory = w.memory := by
    rw [← spares calls w, passes.run]
  exact Program.Passes.displays passes looked₁ same
    (rest calls w₁ (looked.trans looked₁) (same.trans memory))

/-- What is seen after something that is found without fail. -/
theorem reveals_after {q : Program α} {g : α → Bridge Value} {x : α} (finds : q.Finds v (· = x))
    (spares : q.Spares) (rest : Reveals (g x) v o) :
    Reveals (liftM q >>= g : Bridge Value) v o :=
  Finds.reveals (finds_lift finds fun _ same => congrArg Except.ok same) (spares_lift spares) rest

theorem Reveals.region {p : Bridge Value} (reveals : Reveals p v o) :
    Reveals (Bridge.region Value.claims p) v o :=
  fun calls w looked memory => (reveals calls w looked memory).region

theorem reveals_decode {t : Nat} {e : Entry} (slot : Slot) (sound : v.database.Sound)
    (found : v.database.entry? t = some e) :
    Reveals (Codec.decode slot t) v (v.decoding slot t e) := by
  intro calls w looked memory
  have database : w.database = v.database := looked.database
  rw [← (looked.resembles memory).decoding e]
  exact Codec.displays_decode slot (database ▸ sound) (database ▸ found)

theorem spares_ofRuntime {reading : RuntimeFailure → Failure} {p : Runtime α} (spares : Spares p) :
    Spares (ofRuntime reading p) :=
  Program.Spares.bind spares fun _ => Program.spares_pure

end Bridge

/-! ### Looking members up reserves no storage -/

namespace Descriptor

variable {t : Token} {name : String}

theorem spares_firstNamed {entries : List Token} : Spares (firstNamed name entries) := by
  induction entries with
  | nil => exact spares_pure
  | cons u rest ih =>
    refine (spares_request rfl).bind fun _ => spares_entry.bind fun e => ?_
    split
    · exact spares_pure
    · exact (spares_request rfl).bind fun _ => ih

theorem spares_member {group : MemberGroup} : Spares (member? group name t) :=
  spares_entry.bind fun _ => spares_firstNamed

end Descriptor

namespace Member

variable {t : Token} {name : String}

theorem spares_findEither {group : MemberGroup} : Spares (findEither group t name) := by
  refine spares_member.bind fun found => ?_
  split
  · exact spares_pure
  · split
    · exact spares_pure
    · refine spares_member.bind fun found => ?_
      split <;> exact spares_pure

theorem spares_findProperty : Spares (findProperty t name) := by
  refine spares_entry.bind fun e => ?_
  split
  · exact spares_findEither
  · exact spares_pure

theorem spares_findField : Spares (findField t name) := by
  refine spares_entry.bind fun e => ?_
  split
  · exact spares_findEither
  · exact spares_pure

/-- The property that a name finds on a type. -/
def property? (db : Database) (t : Token) (name : String) : Option (Token × String) :=
  match db.entry? t with
  | some e =>
    if e.kind = .object || e.kind = .interface then declared? db .property name t else none
  | none => none

/-- The field that a name finds on a type. -/
def field? (db : Database) (t : Token) (name : String) : Option (Token × String) :=
  match db.entry? t with
  | some e => if e.kind = .object || e.kind.isRecord then declared? db .field name t else none
  | none => none

theorem finds_property {v : World} (linked : v.database.Linked) (known : v.database.Has t) :
    Finds (findProperty t name) v (· = property? v.database t name) := by
  obtain ⟨e, found⟩ := known.entry
  refine (finds_findProperty linked found).weaken fun r same => ?_
  rw [same, property?, found]

theorem finds_field {v : World} (linked : v.database.Linked) (known : v.database.Has t) :
    Finds (findField t name) v (· = field? v.database t name) := by
  obtain ⟨e, found⟩ := known.entry
  refine (finds_findField linked found).weaken fun r same => ?_
  rw [same, field?, found]

/-- A property that a name finds is declared by the type itself. -/
theorem ownMember?_of_property {db : Database} {property : Token} {spelling : String}
    (named : property? db t name = some (property, spelling)) :
    db.ownMember? .property spelling t = some property := by
  unfold property? at named
  split at named
  · split at named
    · exact ownMember?_of_declared named
    · cases named
  · cases named

/-- What a name finds is found on an entry. -/
theorem has_of_property {db : Database} {found : Token × String}
    (named : property? db t name = some found) : db.Has t := by
  unfold property? at named
  split at named
  · next known => exact Database.has_of_entry known
  · cases named

end Member

namespace Runtime

variable {a : Address} {name : String}

theorem spares_findProperty : Bridge.Spares (findProperty a name) := by
  refine (Bridge.spares_lift (spares_request rfl)).bind fun i =>
    (Bridge.spares_lift (spares_request rfl)).bind fun db => ?_
  split
  · exact Bridge.spares_pure
  · exact Bridge.spares_throw

theorem spares_readProperty : Bridge.Spares (readProperty a name) :=
  spares_findProperty.bind fun _ =>
    (Bridge.spares_lift ((spares_request rfl).bind fun _ => spares_pure)).bind fun _ =>
      Bridge.spares_pure

end Runtime

namespace Handle

variable {v : World} {h : HandleId} {name spelling : String} {a : Address} {member t : Nat}
  {f u : Entry} {i : Instance}

theorem spares_receiver {r : HandleRecord} : Bridge.Spares (receiver r name) := by
  unfold receiver
  split
  · exact Bridge.spares_pure
  · exact Bridge.spares_throw

theorem spares_memberType : Bridge.Spares (memberType member name) := by
  refine (Bridge.spares_lift (spares_entry.bind fun _ => spares_take)).bind fun declared => ?_
  split
  · exact Bridge.spares_pure
  · exact Bridge.spares_throw

/-- A handle is bound to an address and typed by an entry. -/
structure Bound (w : World) (h : HandleId) (a : Address) (info : Token) : Prop where
  /-- The address. -/
  attached : ∃ ownership, (w.store.handle h).attachment = some ⟨a, ownership⟩
  /-- The entry. -/
  typed : (w.store.handle h).info = some info

/-- A member of some kind has a declared type. -/
structure Declared (db : Database) (member : Token) (f : Entry) (t : Token) (u : Entry) :
    Prop where
  /-- The entry of the member. -/
  known : db.entry? member = some f
  /-- Its declared type. -/
  declared : f.declared? = some t
  /-- The entry of the type. -/
  type : db.entry? t = some u

variable {info : Token}

theorem Bound.finds_receiver (bound : Bound v h a info) :
    Bridge.Finds (receiver (v.store.handle h) name) v (· = .ok a) := by
  obtain ⟨ownership, attached⟩ := bound.attached
  exact Handle.finds_receiver.weaken fun given same => by rw [same, attached]

theorem Bound.finds_typed (bound : Bound v h a info) :
    Bridge.Finds (Handle.typed (v.store.handle h)) v (· = .ok info) :=
  Handle.finds_typed.weaken fun given same => by rw [same, bound.typed]

theorem Declared.finds_type (declared : Declared v.database member f t u) :
    Bridge.Finds (memberType member name) v (· = .ok t) := by
  refine .next ((finds_entry declared.known).next finds_take) ?_
  rw [declared.declared]
  exact Bridge.finds_pure rfl

theorem Declared.tag {db : Database} (declared : Declared db member f t u) :
    db.declaredTag member = u.tag := by
  simp only [Database.declaredTag, declared.known, Option.bind_some, declared.declared,
    Database.tagOf, declared.type]

/-- A name finds a field, which no property of that name hides. -/
structure OnField (w : World) (h : HandleId) (name : String) (a : Address) (field : Token)
    (f : Entry) (t : Token) (u : Entry) : Prop extends
    Declared w.database field f t u where
  /-- The handle is bound to memory, and the name finds the field on the type of the handle. -/
  found : ∃ info spelling, Bound w h a info ∧ Member.property? w.database info name = none
    ∧ Member.field? w.database info name = some (field, spelling)
  /-- The address is not null. -/
  present : a ≠ 0

/-- A name finds a property of a live instance; the handle is typed by the entry of the runtime type
of the instance. -/
structure OnProperty (w : World) (h : HandleId) (name : String) (a : Address) (i : Instance)
    (property : Token) (spelling : String) (f : Entry) (t : Token) (u : Entry) : Prop extends
    Declared w.database property f t u where
  /-- The instance is live. -/
  live : w.store.instances.get? a = some i
  /-- The name finds the property on the type of the handle, which is that of the instance. -/
  found : ∃ info, Bound w h a info ∧ w.database.registered? i.number = some info
    ∧ Member.property? w.database info name = some (property, spelling)

theorem OnField.has {field : Token} (on : OnField v h name a field f t u) :
    ∃ info spelling, Bound v h a info ∧ Member.property? v.database info name = none
      ∧ Member.field? v.database info name = some (field, spelling) ∧ v.database.Has info := by
  obtain ⟨info, spelling, bound, hidden, named⟩ := on.found
  refine ⟨info, spelling, bound, hidden, named, ?_⟩
  unfold Member.field? at named
  split at named
  · next known => exact Database.has_of_entry known
  · cases named

/-- The runtime reads the bytes of a field. -/
theorem succeeds_readField (calls : Calls) {w : World} {field : Token}
    (declared : Declared w.database field f t u) (present : a ≠ 0) :
    Bridge.Succeeds calls (Runtime.readField field a) w
      (w.memory.readSlot (a + f.offset) u.tag.fieldWidth) w := by
  refine Bridge.succeeds_bind.mpr
    ⟨f, w, Bridge.succeeds_lift.mpr (run_entry.mpr ⟨declared.known, rfl⟩), ?_⟩
  rw [if_neg present]
  refine Bridge.succeeds_bind.mpr ⟨w.database, w, Bridge.succeeds_lift.mpr rfl, ?_⟩
  refine Bridge.succeeds_bind.mpr ⟨w.memory, w, Bridge.succeeds_lift.mpr rfl, ?_⟩
  rw [declared.tag]
  exact Bridge.succeeds_pure.mpr ⟨rfl, rfl⟩

/-- Reading a field shows what lies in its bytes. -/
theorem reveals_readField {field : Token} {r : HandleRecord} (sound : v.database.Sound)
    (declared : Declared v.database field f t u) (present : a ≠ 0)
    (receives : Bridge.Finds (receiver r name) v (· = .ok a)) :
    Bridge.Reveals (readField r field name) v
      (v.decoding (v.memory.readSlot (a + f.offset) u.tag.fieldWidth) t u) := by
  refine .region <| receives.reveals spares_receiver ?_
  refine declared.finds_type.reveals spares_memberType ?_
  intro calls w looked memory
  have database : w.database = v.database := looked.database
  have read : (Bridge.ofRuntime (fun f : RuntimeFailure =>
      Failure.fieldAccess ("get " ++ name ++ ": " ++ f.message))
      (Runtime.readField field a)).run.Passes calls w
      (.ok (v.memory.readSlot (a + f.offset) u.tag.fieldWidth)) w :=
    ⟨Bridge.succeeds_ofRuntime.mpr
      (memory ▸ succeeds_readField calls (database ▸ declared) present),
      Bridge.silent_ofRuntime Runtime.silent_readField calls w⟩
  exact read.displays (.refl w) rfl
    (Bridge.reveals_decode _ sound declared.type calls w looked memory)

/-- Getting a member that is found as a field shows what lies in its bytes. -/
theorem reveals_get_field {field : Token} (sound : v.database.Sound)
    (on : OnField v h name a field f t u) :
    Bridge.Reveals (get h name) v
      (v.decoding (v.memory.readSlot (a + f.offset) u.tag.fieldWidth) t u) := by
  obtain ⟨info, spelling, bound, hidden, named, known⟩ := on.has
  refine .region <| Bridge.reveals_after finds_handleRecord spares_handleRecord ?_
  refine bound.finds_typed.reveals spares_typed ?_
  refine Bridge.reveals_after (Member.finds_property sound.toLinked known)
    Member.spares_findProperty ?_
  rw [hidden]
  refine Bridge.reveals_after (Member.finds_field sound.toLinked known)
    Member.spares_findField ?_
  rw [named]
  exact reveals_readField sound on.toDeclared on.present bound.finds_receiver

/-- The runtime finds the property that the bridge found. -/
theorem OnProperty.chainMember {property : Token}
    (on : OnProperty v h name a i property spelling f t u) :
    v.database.chainMember? i.number .property spelling = some property := by
  obtain ⟨info, _, registered, named⟩ := on.found
  obtain ⟨e, known⟩ := (Member.has_of_property named).entry
  exact chainMember?_of_own registered known (Member.ownMember?_of_property named)

/-- Getting a member that is found as a property shows its stored slot, or zero. -/
theorem reveals_get_property {property : Token} (sound : v.database.Sound)
    (on : OnProperty v h name a i property spelling f t u)
    (readable : f.propertyFlags.contains PropertyFlag.readable = true) :
    Bridge.Reveals (get h name) v
      (v.decoding ((i.properties.lookup spelling).getD .zero) t u) := by
  obtain ⟨info, bound, registered, named⟩ := on.found
  have known : v.database.Has info := Member.has_of_property named
  refine .region <| Bridge.reveals_after finds_handleRecord spares_handleRecord ?_
  refine bound.finds_typed.reveals spares_typed ?_
  refine Bridge.reveals_after (Member.finds_property sound.toLinked known)
    Member.spares_findProperty ?_
  rw [named]
  refine .region <| bound.finds_receiver.reveals spares_receiver ?_
  refine Bridge.reveals_after (finds_entry on.known) spares_entry ?_
  rw [readable]
  refine on.finds_type.reveals spares_memberType ?_
  have found : Bridge.Finds (Runtime.readProperty a spelling) v
      (· = .ok ((i.properties.lookup spelling).getD .zero)) := by
    refine .bind (Runtime.finds_findProperty on.live on.chainMember) (fun _ _ => ?_)
      fun _ failed => by cases failed
    exact .next ((finds_liveInstance on.live).next (finds_pure rfl)) (Bridge.finds_pure rfl)
  have stored : Bridge.Finds (Bridge.ofRuntime .runtime (Runtime.readProperty a spelling)) v
      (· = .ok ((i.properties.lookup spelling).getD .zero)) :=
    Bridge.finds_ofRuntime found fun r same => by rw [same]; rfl
  exact stored.reveals (Bridge.spares_ofRuntime Runtime.spares_readProperty)
    (Bridge.reveals_decode _ sound on.type)

end Handle
end ObjectBridge
