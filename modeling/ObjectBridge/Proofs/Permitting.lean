import ObjectBridge.Proofs.Keeping
import ObjectBridge.Proofs.Properties
import ObjectBridge.Proofs.Visiting

/-!
# Which properties may be written and read

A property is written and read by its name, through a handle, and the flags that count are those of
the entry that the name finds on the type of that handle.  An evaluation writes members as setting
does and reads them as getting does, through the handle that it visits.
-/

namespace ObjectBridge

open Program Bridge Descriptor

variable {calls : Calls} {w w' u : World} {a b : Address} {name n : String}

/-! ### What a run remembers -/

/-- No cell. -/
abbrev nowhere : Address → Prop := fun _ => False

/-- What does not store a property leaves it. -/
theorem Request.leaves_of_other {r : Request} (other : r.stores b n = false) :
    r.Leaves b n nowhere where
  stored := other
  written into := by
    unfold WritesInto at into
    split at into
    · obtain ⟨_, impossible, _⟩ := into
      exact impossible
    · exact into

theorem Request.stores_iff {kept : Slot} :
    (Request.storeProperty a name kept).stores b n = true ↔ a = b ∧ name = n := by
  simp only [stores, Bool.and_eq_true, decide_eq_true_eq]

/-- A quiet request stores no property. -/
theorem World.remembers_quiet {r : Request} (quiet : r.quiet = true) :
    Remembers b n nowhere w (w.answer calls r).2 := by
  refine remembers_answer calls ?_ (Request.leaves_of_other ?_) w <;> cases r <;>
    first
      | rfl
      | cases quiet

/-- A run remembers what the answers to its deeds remember. -/
theorem Program.remembers_run {α : Type} (p : Program α) (w : World)
    (still : ∀ deed ∈ p.deeds calls w,
      World.Remembers b n nowhere deed.1 (deed.1.answer calls deed.2).2) :
    World.Remembers b n nowhere w (p.run calls w).2 := by
  induction p generalizing w with
  | done x => exact .refl w
  | ask request next ih =>
    simp only [Program.deeds, Program.moments, List.filter_cons] at still
    have first : World.Remembers b n nowhere w (w.answer calls request).2 := by
      cases quiet : request.quiet with
      | true => exact World.remembers_quiet quiet
      | false =>
        simp only [quiet, Bool.not_false, if_true] at still
        exact still _ List.mem_cons_self
    have later : ∀ reply w₁, w.answer calls request = (.done reply, w₁) →
        ∀ deed ∈ (next reply).deeds calls w₁,
          World.Remembers b n nowhere deed.1 (deed.1.answer calls deed.2).2 := by
      intro reply w₁ answered deed member
      simp only [answered] at still
      refine still deed ?_
      split
      · exact List.mem_cons_of_mem _ member
      · exact member
    simp only [Program.run]
    revert first later
    cases w.answer calls request with
    | mk outcome w₁ =>
      cases outcome with
      | done reply => exact fun first later => first.trans (ih reply w₁ (later reply w₁ rfl))
      | stopped why => exact fun first _ => first

/-! ### What the runtime stores -/

namespace Runtime

variable {kind : World × Request → Prop} {slot : Slot} {number : TypeNumber}

theorem performs_storeProperty {property : Token}
    (performs : (storeProperty a property n slot).Performs calls w kind) :
    ∃ u kept, w.Looked u ∧ kind (u, .storeProperty a n kept) := by
  obtain ⟨db, w₁, looked, rest⟩ := performs.after silent_database
  obtain ⟨rfl, rfl⟩ := run_database.mp looked
  obtain ⟨i, w₂, found, rest⟩ := rest.after silent_liveInstance
  obtain ⟨_, rfl⟩ := run_liveInstance.mp found
  obtain ⟨kept, w₃, copied, last⟩ := rest.after silent_copyString
  exact ⟨w₃, kept, looked_of_run silent_copyString reading_copyString copied,
    last.request⟩

end Runtime

/-- The flags of the property of a name that the type of a live instance declares. -/
def World.declaredFlags? (w : World) (a : Address) (name : String) : Option FlagSet := do
  let i ← w.store.instances.get? a
  let m ← w.database.chainMember? i.number .property name
  let f ← w.database.entry? m
  return f.propertyFlags

namespace Handle

variable {h : HandleId} {r : HandleRecord} {spelling : String} {v x : Value} {m : Token}
  {flag : FlagSet} {kind : World × Request → Prop} {arguments rest : List Argument}

/-! ### What is written -/

/-- A handle is on an instance, and a name finds a property on the type of the handle whose entry
has a flag. -/
structure Permits (w : World) (flag : FlagSet) (h : HandleId) (name spelling : String) : Prop where
  /-- There is an instance. -/
  bound : (w.store.handle h).isBound = true
  /-- The entry of the property has the flag. -/
  found : ∃ m f, addressed? w h name = some (.property m spelling)
    ∧ w.database.entry? m = some f ∧ f.propertyFlags.contains flag = true

theorem handle_looked (looked : w.Looked u) (h : HandleId) :
    u.store.handle h = w.store.handle h := by
  rw [Store.handle, looked.handles]
  rfl

theorem permits_looked (looked : w.Looked u) :
    Permits u flag h name spelling ↔ Permits w flag h name spelling := by
  have same (w : World) : Permits w flag h name spelling
      ↔ (w.store.handle h).isBound = true
        ∧ ∃ m f, addressed? w h name = some (.property m spelling)
          ∧ w.database.entry? m = some f ∧ f.propertyFlags.contains flag = true :=
    ⟨fun permits => ⟨permits.bound, permits.found⟩, fun both => ⟨both.1, both.2⟩⟩
  rw [same, same, handle_looked looked, addressed?_looked looked, looked.database]

theorem bound_of_receiver (received : Succeeds calls (receiver r name) w a w') :
    r.isBound = true ∧ r.address = a := by
  unfold receiver at received
  unfold HandleRecord.isBound HandleRecord.address
  split at received
  · next attachment there =>
    rw [there]
    exact ⟨rfl, (succeeds_pure.mp received).1⟩
  · exact absurd received not_succeeds_throw

/-- Writing a property stores it in the instance of the handle, and only if its entry has the
flag. -/
theorem performs_writeProperty
    (performs : (writeProperty r m spelling v).run.Performs calls w kind) :
    r.isBound = true
      ∧ (∃ f, w.database.entry? m = some f ∧ f.propertyFlags.contains PropertyFlag.writable = true)
      ∧ ∃ u kept, w.Looked u ∧ kind (u, .storeProperty r.address spelling kept) := by
  obtain ⟨a, w₁, received, rest⟩ := performs_after silent_receiver (performs_region performs)
  have looked₁ := received.looked silent_receiver reading_receiver
  obtain ⟨f, w₂, seen, rest⟩ := performs_after (silent_lift silent_entry) rest
  obtain ⟨known, rfl⟩ := run_entry.mp (succeeds_lift.mp seen)
  have attached := bound_of_receiver received
  dsimp only at rest
  split at rest
  · exact absurd rest not_performs_throw
  · next writable =>
    obtain ⟨type, w₃, declared, rest⟩ := performs_after silent_memberType rest
    obtain ⟨⟨slot, block⟩, w₄, encoded, rest⟩ := performs_after Codec.silent_encode rest
    obtain ⟨property, w₅, found, rest⟩ :=
      performs_after Runtime.silent_findProperty (performs_ofRuntime rest)
    obtain ⟨u, kept, looked, fits⟩ := Runtime.performs_storeProperty (performs_lift rest)
    have before := (looked₁.trans (declared.looked silent_memberType reading_memberType)).trans
      ((encoded.looked Codec.silent_encode Codec.reading_encode).trans
        (found.looked Runtime.silent_findProperty Runtime.reading_findProperty))
    refine ⟨attached.1, ⟨f, looked₁.database ▸ known, ?_⟩, u, kept, before.trans looked,
      attached.2 ▸ fits⟩
    simpa using writable

/-- Writing a field stores bytes. -/
theorem performs_writeField (performs : (writeField r m spelling v).run.Performs calls w kind) :
    ∃ u a cells, kind (u, .write a cells) := by
  obtain ⟨a, w₁, _, rest⟩ := performs_after silent_receiver (performs_region performs)
  obtain ⟨type, w₂, _, rest⟩ := performs_after silent_memberType rest
  obtain ⟨⟨slot, block⟩, w₃, _, rest⟩ := performs_after Codec.silent_encode rest
  obtain ⟨e, w₄, _, rest⟩ := performs_after (silent_lift silent_entry) (performs_ofRuntime rest)
  dsimp only at rest
  split at rest
  · exact absurd rest not_performs_throw
  · obtain ⟨db, w₅, _, rest⟩ := performs_after (silent_lift silent_database) rest
    obtain ⟨kept, w₆, _, rest⟩ := performs_after (silent_lift Runtime.silent_fieldSlot) rest
    exact ⟨w₆, _, _, (performs_lift rest).request⟩

/-- Setting a member stores a permitted property of the instance of the handle, or bytes. -/
theorem performs_set (performs : (set h name v).run.Performs calls w kind) :
    (∃ u a cells, kind (u, .write a cells))
      ∨ ∃ u spelling kept, Permits u PropertyFlag.writable h name spelling
        ∧ w.Looked u ∧ kind (u, .storeProperty (w.store.handle h).address spelling kept) := by
  rw [set_eq] at performs
  obtain ⟨deed, member, fits⟩ := performs_region performs
  obtain ⟨u, looked, visits⟩ := visits calls w h name
    (fun r m spelling => writeProperty r m spelling v) fun r m spelling => writeField r m spelling v
  cases visits with
  | @property m spelling found leads =>
    obtain ⟨bound, ⟨f, known, writable⟩, u', kept, looked', fits⟩ :=
      performs_writeProperty ⟨deed, leads.deeds ▸ member, fits⟩
    have permits : Permits w PropertyFlag.writable h name spelling :=
      ⟨bound, m, f, found, looked.database ▸ known, writable⟩
    have before := looked.trans looked'
    exact .inr ⟨u', spelling, kept, (permits_looked before).mpr permits, before, fits⟩
  | field found leads => exact .inl (performs_writeField ⟨deed, leads.deeds ▸ member, fits⟩)
  | missing _ _ leads | untyped _ leads =>
    have performs : (throw _ : Bridge Unit).run.Performs calls u kind :=
      ⟨deed, leads.deeds ▸ member, fits⟩
    exact absurd performs not_performs_throw
  | @stopped why leads =>
    have performs : (stop why : Program (Except Failure Unit)).Performs calls u kind :=
      ⟨deed, leads.deeds ▸ member, fits⟩
    exact absurd performs silent_stop.not_performs

/-- What is stored of an instance stays, unless setting a member stores it. -/
theorem remembers_set (calls : Calls) (w : World) (h : HandleId) (name : String) (v : Value)
    (b : Address) (n : String) :
    World.Remembers b n nowhere w ((set h name v).run.run calls w).2
      ∨ (w.store.handle h).address = b ∧ Permits w PropertyFlag.writable h name n := by
  by_cases stored : (set h name v).run.Performs calls w fun deed => deed.2.stores b n = true
  · rcases performs_set stored with ⟨_, _, _, impossible⟩ | ⟨u, spelling, kept, permits, looked, same⟩
    · cases impossible
    · obtain ⟨there, rfl⟩ := Request.stores_iff.mp same
      exact .inr ⟨there, (permits_looked looked).mp permits⟩
  · refine .inl (remembers_run _ w fun deed member => ?_)
    have other : deed.2.stores b n = false :=
      Bool.eq_false_of_not_eq_true fun same => stored ⟨deed, member, same⟩
    have direct : deed.2.direct = true := by
      have performs : (set h name v).run.Performs calls w (· = deed) := ⟨deed, member, rfl⟩
      rcases performs_set performs with ⟨_, _, _, rfl⟩ | ⟨_, _, _, _, _, rfl⟩ <;> rfl
    exact World.remembers_answer calls direct (Request.leaves_of_other other) deed.1

/-- A handle is on an instance, and a name finds a property on the type of the handle whose entry
lacks a flag. -/
structure Denies (w : World) (flag : FlagSet) (h : HandleId) (name spelling : String) : Prop where
  /-- There is an instance. -/
  bound : (w.store.handle h).isBound = true
  /-- The entry of the property lacks the flag. -/
  found : ∃ m f, addressed? w h name = some (.property m spelling)
    ∧ w.database.entry? m = some f ∧ f.propertyFlags.contains flag = false

/-- An argument of an evaluation that is refused: it writes or reads a property whose entry does not
permit that. -/
inductive Refusal (w : World) (h : HandleId) : List Argument → Failure → Prop
  /-- A property is written. -/
  | write {name spelling : String} {v : Value} {rest : List Argument}
      (denies : Denies w PropertyFlag.writable h name spelling) :
      Refusal w h (.keyword name v :: rest) (.notWritable spelling)
  /-- A property is read into a global. -/
  | read {name spelling global : String} {first : Argument} {rest : List Argument}
      (named : first.name? = some name)
      (denies : Denies w PropertyFlag.readable h name spelling) :
      Refusal w h (first :: .output global :: rest) (.notReadable spelling)

/-- How the flags of properties guard what is written and read through handles.  The flags are those
of the entry that a name finds on the type of the handle; of a handle whose type is that of its
instance they are the flags that the instance was declared with. -/
structure Guarded (calls : Calls) (w : World) : Prop where
  /-- Of what any instance has stored, setting a member changes at most what the handle permits to
  write, on the instance of the handle. -/
  setWrites : ∀ h name v b n, b < w.memory.next →
    w.store.Remembers b n ((set h name v).run.run calls w).2.store
      ∨ (w.store.handle h).address = b ∧ Permits w PropertyFlag.writable h name n
  /-- What an evaluation stores in an instance that it did not make itself, a handle that it visits
  permits to write. -/
  evalStores : ∀ h arguments u b n kept,
    (u, .storeProperty b n kept) ∈ (eval h arguments).run.deeds calls w →
    w.memory.next ≤ b ∨ ∃ target name, (u.store.handle target).address = b
      ∧ Permits u PropertyFlag.writable target name n
  /-- An evaluation changes nothing else of what an instance has stored, if the functions that it
  calls do not. -/
  evalWrites : ∀ h arguments b n, b < w.memory.next → calls.Along (World.Remembers b n nowhere) →
    w.store.Remembers b n ((eval h arguments).run.run calls w).2.store
      ∨ ∃ u kept, (u, .storeProperty b n kept) ∈ (eval h arguments).run.deeds calls w
  /-- Setting what a handle denies to write fails and changes nothing. -/
  setRefused : ∀ h name spelling v, Denies w PropertyFlag.writable h name spelling →
    ∃ w', Fails calls (set h name v) w (.notWritable spelling) w' ∧ w.Untouched w'
  /-- Getting gives what a handle permits to read. -/
  got : ∀ h name m spelling x w', addressed? w h name = some (.property m spelling) →
    Succeeds calls (get h name) w x w' → Permits w PropertyFlag.readable h name spelling
  /-- Getting what a handle denies to read fails and changes nothing. -/
  getRefused : ∀ h name spelling, Denies w PropertyFlag.readable h name spelling →
    ∃ w', Fails calls (get h name) w (.notReadable spelling) w' ∧ w.Untouched w'
  /-- Extracting gives what a handle permits to read, unless the name means a method. -/
  extracted : ∀ h name m spelling x w', addressed? w h name = some (.property m spelling) →
    Succeeds calls (extract h name) w x w' →
    Permits w PropertyFlag.readable h name spelling
      ∨ ∃ info method u, (w.store.handle h).info = some info
        ∧ Succeeds calls (Member.resolve info name) w (.method method) u
  /-- Extracting what a handle denies to read fails and changes nothing, if the name means the
  property. -/
  extractRefused : ∀ h name m spelling info u, (w.store.handle h).info = some info →
    Succeeds calls (Member.resolve info name) w (.property m spelling) u →
    Denies w PropertyFlag.readable h name spelling →
    ∃ w', Fails calls (extract h name) w (.notReadable spelling) w' ∧ w.Untouched w'
  /-- An evaluation has the host set globals only to what getting a member gave. -/
  assigned : ∀ h arguments u global v,
    (u, .assignGlobal global v) ∈ (eval h arguments).run.deeds calls w →
    ∃ x target name, Succeeds calls (get target name) x v u
      ∧ ∀ m spelling, addressed? x target name = some (.property m spelling) →
        Permits x PropertyFlag.readable target name spelling
  /-- An evaluation that comes to an argument that is refused fails, unless giving its temporaries
  back panics, and the argument changes nothing. -/
  evalRefused : ∀ h arguments target visited w₁ rest u f,
    Succeeds calls (plan h arguments) w (.visit target visited) w₁ →
    Accesses calls target visited w₁ rest u → u.database.Built → Refusal u target rest f →
    ∃ u', u.Untouched u' ∧ (eval h arguments).run.run calls w
      = ((u'.settle w.store.held.length []).1.map fun _ => .error f,
          (u'.settle w.store.held.length []).2)
  /-- A handle of the type of its instance finds what that type declares. -/
  declared : ∀ h name m f spelling i,
    w.store.instances.get? (w.store.handle h).address = some i →
    (w.store.handle h).info = w.database.registered? i.number →
    addressed? w h name = some (.property m spelling) → w.database.entry? m = some f →
    w.declaredFlags? (w.store.handle h).address spelling = some f.propertyFlags

end Handle
end ObjectBridge
