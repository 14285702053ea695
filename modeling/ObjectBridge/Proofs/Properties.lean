import ObjectBridge.Proofs.Neighbours
import ObjectBridge.Proofs.Remembering

/-!
# Properties are read back

A property is stored under the name with which it was declared.  Setting it changes no other
property and no count, and until it is stored again it is read back as its type normalizes it, under
every name that finds it, also when the type database has grown meanwhile.
-/

namespace ObjectBridge

open Program Bridge

variable {calls : Calls} {w w' : World} {m m' : Memory} {a : Address} {e : Entry} {v : Value}
  {name : String} {wanted : Codec.Shape}

/-- A string keeps its bytes as long as its cells are the same. -/
theorem Memory.Holds.congr {bytes : List UInt8} (holds : m.Holds a bytes)
    (next : m.next ≤ m'.next) (extent : m.extent ≤ m'.extent)
    (same : ∀ b, m.TextSpan a b → m'.cell b = m.cell b) : m'.Holds a bytes where
  plain := holds.plain
  read := by
    rw [← holds.read]
    refine List.map_congr_left fun i member => ?_
    have within : a + i ≤ a + (m.stringBytes a).length := by
      rw [holds.stringBytes]
      exact Nat.add_le_add_left (Nat.le_of_lt_succ (List.mem_range.mp member)) a
    rw [byte, byte, same _ ⟨Nat.le_add_right a i, within⟩]
  reserved := Nat.le_trans holds.reserved next
  extent := Nat.lt_of_lt_of_le holds.extent extent

namespace Codec

/-- What is kept of a value stands for it as long as the text that it leads to is left alone. -/
theorem StandsFor.later {s : Store} {slot : Slot} {w' : World}
    (stands : StandsFor s v w.memory slot wanted)
    (remembers : World.Remembers a name (wanted.Visits w slot.address) w w') :
    StandsFor s v w'.memory slot wanted := by
  match wanted, stands with
  | .boolean, stands | .scalar (.integer f), stands | .enumeration f, stands
  | .object _, stands | .interface _, stands | .record _ _, stands => exact stands
  | .text, .inl absent => exact .inl absent
  | .text, .inr ⟨text, same, present, held⟩ =>
    refine .inr ⟨text, same, present, held.congr remembers.next remembers.extent fun b inside => ?_⟩
    refine remembers.cells b (Nat.lt_of_lt_of_le ?_ held.reserved) ⟨present, inside⟩
    rw [← Nat.add_assoc, ← held.stringBytes]
    exact Nat.lt_succ_of_le inside.2

/-! ### Shapes in a database that has grown -/

/-- Shapes in which slots are decoded alike: of a record it does not matter whether it is a generic
value box. -/
def Shape.Like : Shape → Shape → Prop
  | .record target _, other => ∃ boxed, other = .record target boxed
  | wanted, other => other = wanted

theorem Shape.Like.refl (wanted : Shape) : wanted.Like wanted := by
  cases wanted with
  | record target boxed => exact ⟨boxed, rfl⟩
  | _ => rfl

theorem shapeShown_like {other : Shape} {slot : Slot} {t : Token} (like : wanted.Like other) :
    w.shapeShown slot t other = w.shapeShown slot t wanted := by
  cases wanted with
  | record target boxed =>
    obtain ⟨boxed, rfl⟩ := like
    rfl
  | _ =>
    cases like
    rfl

/-- The members of an entry do not matter to its shape. -/
theorem shapeFor_congr {db : Database} {e' : Entry} (same : e'.content = e.content) :
    shapeFor db e' = shapeFor db e := by
  obtain ⟨_, _, _, _, content⟩ := e
  obtain ⟨_, _, _, _, content'⟩ := e'
  obtain rfl : content' = content := same
  rfl

/-- Only for a record the type numbers of the database matter. -/
theorem shapeForTarget_later {db later : Database} {target : Token}
    (shaped : shapeForTarget db target e = .ok wanted) :
    ∃ other, shapeForTarget later target e = .ok other ∧ wanted.Like other := by
  by_cases record : e.kind.isRecord = true
  · have shapes (db : Database) : shapeForTarget db target e
        = .ok (.record target (db.isA e.number Database.valueBoxNumber)) := by
      unfold shapeForTarget
      revert record
      cases e.kind <;> intro record <;> first | rfl | cases record
    rw [shapes db] at shaped
    cases shaped
    exact ⟨_, shapes later, _, rfl⟩
  · have same : shapeForTarget later target e = shapeForTarget db target e := by
      simp only [shapeForTarget, if_neg record]
    exact ⟨wanted, same.trans shaped, .refl wanted⟩

/-- A type keeps its shape when the database grows. -/
theorem shapeFor_later {db later : Database} (grown : db.Extends later)
    (shaped : shapeFor db e = .ok wanted) :
    ∃ other, shapeFor later e = .ok other ∧ wanted.Like other := by
  by_cases refers : e.tag = .interface
  · rw [shapeFor, refers] at shaped ⊢
    dsimp only at shaped ⊢
    cases found : e.target? with
    | none =>
      rw [found] at shaped
      cases shaped
    | some target =>
      rw [found] at shaped
      dsimp only at shaped ⊢
      cases known : db.entry? target with
      | none =>
        rw [known] at shaped
        cases shaped
      | some f =>
        rw [known] at shaped
        obtain ⟨members, known'⟩ := grown.entries target f known
        rw [known']
        exact shapeForTarget_later (e := f) shaped
  · have same : shapeFor later e = shapeFor db e := by
      unfold shapeFor
      cases tagged : e.tag <;> first | rfl | exact absurd tagged refers
    exact ⟨wanted, same.trans shaped, .refl wanted⟩

end Codec

/-- What an instance has stored under a name. -/
def World.stored? (w : World) (a : Address) (name : String) : Option Slot :=
  (w.store.instances.get? a).bind fun i => i.properties.lookup name

namespace Handle

variable {h : HandleId} {spelling : String} {i : Instance} {kept : Slot} {tag : Tag}
  {member t : Nat}
  {f u : Entry}

/-- What setting a property did: it is stored, and nothing that was stored or counted changed. -/
structure PropertyStored (w w' : World) (a : Address) (spelling : String) (kept : Slot) : Prop where
  /-- The property of the instance is stored; the others, of any instance, are as before. -/
  stored : ∀ b name,
    w'.stored? b name = if b = a ∧ name = spelling then some kept else w.stored? b name
  /-- The references to instances. -/
  references : ∀ b, w'.store.references b = w.store.references b
  /-- The handles and their shares. -/
  handles : w'.store.handles = w.store.handles
  /-- The references to entries. -/
  entries : ∀ t, w'.store.ledger.get t = w.store.ledger.get t
  /-- Memory only got new storage. -/
  memory : w.memory.Extends w'.memory

theorem SetProperty.propertyStored {x : Value}
    (set : SetProperty calls w x a i spelling t tag w' kept)
    (live : w.store.instances.get? a = some i) : PropertyStored w w' a spelling kept := by
  obtain ⟨lodged, untouched⟩ := set
  have found (b : Address) : w'.store.instances.get? b
      = if b = a then some { i with properties := assign spelling kept i.properties }
        else w.store.instances.get? b := by
    rw [untouched.instances]
    change (w.store.instances.set a _).get? b = _
    rw [Table.get?_set]
    by_cases same : b = a
    · rw [if_pos same, if_pos same, same, live, Option.map_some]
    · rw [if_neg same, if_neg same]
  refine ⟨fun b name => ?_, fun b => ?_, by rw [untouched.alike.rest]; rfl, untouched.alike.ledger,
    lodged.extends⟩
  · rw [World.stored?, World.stored?, found]
    by_cases same : b = a
    · subst same
      rw [if_pos rfl, live, Option.bind_some, Option.bind_some, lookup_assign]
      by_cases here : name = spelling
      · rw [if_pos here, if_pos ⟨rfl, here⟩]
      · rw [if_neg here, if_neg fun both => here both.2]
    · rw [if_neg same, if_neg fun both => same both.1]
  · rw [Store.references, Store.references, found]
    by_cases same : b = a
    · rw [if_pos same, same, live]
    · rw [if_neg same]

/-- A member is declared in the same way in a database that has grown. -/
theorem Declared.later {db later : Database} {t' : Nat} {f' u' : Entry}
    (declared : Declared db member f t u) (grown : db.Extends later)
    (again : Declared later member f' t' u') :
    f'.propertyFlags = f.propertyFlags ∧ t' = t ∧ u'.content = u.content := by
  obtain ⟨members, known⟩ := grown.entries member f declared.known
  obtain rfl : f' = { f with members := f.members ++ members } :=
    Option.some.inj (again.known.symm.trans known)
  obtain rfl : t' = t := Option.some.inj (again.declared.symm.trans declared.declared)
  obtain ⟨parts, type⟩ := grown.entries _ u declared.type
  obtain rfl : u' = { u with members := u.members ++ parts } :=
    Option.some.inj (again.type.symm.trans type)
  exact ⟨rfl, rfl, rfl⟩

/-- A property is read back.  Setting a member that is found as a writable property of a lasting
shape ends.  Where it fails nothing changed, and where it succeeds no other property of any instance
changed and no count.  From then on, for as long as nothing is stored under the name of the property
of that instance and nothing is written into the copy of a text, getting a member that is found as
the property shows the value as its type normalizes it.  A value under an object type has to be
absent or a live instance then, and so has a value under a record type whose type number stands for
an object type. -/
theorem set_get_property (calls : Calls) (w : World) (built : w.database.Built)
    (bounded : w.Bounded) (h : HandleId) (name : String) (a : Address) (i : Instance)
    (property : Token) (spelling : String) (f : Entry) (t : Token) (u : Entry)
    (on : OnProperty w h name a i property spelling f t u)
    (readable : f.propertyFlags.contains PropertyFlag.readable = true)
    (writable : f.propertyFlags.contains PropertyFlag.writable = true) (wanted : Codec.Shape)
    (shaped : Codec.shapeFor w.database u = .ok wanted) (lasting : wanted.isLasting = true)
    (v : Value) :
    (∃ failure w', Fails calls (set h name v) w failure w' ∧ w.Untouched w')
      ∨ ∃ kept w', Succeeds calls (set h name v) w () w' ∧ PropertyStored w w' a spelling kept
        ∧ ∀ w'', w'.Course (Request.Leaves a spelling (wanted.Visits w' kept.address)) w'' →
          w'.database.Extends w''.database → w''.database.Built →
          ∀ later h' name' j f' t' u', OnProperty w'' h' name' a j property spelling f' t' u' →
            (∀ b, Codec.addressOf w.store v = .ok b → wanted.Takes w'' b) →
            ∃ y, Bridge.shown later (get h' name') w'' = .done (.ok y)
              ∧ Codec.Normalized w.store v w'' t y wanted := by
  have sound := built.sound
  rcases concludes_set_property calls v sound on writable with
    ⟨failure, w', failed, _⟩ | ⟨_, w', ran, kept, set⟩
  · exact .inl ⟨failure, w', failed, untouched_of_set failed⟩
  have stored := set.propertyStored on.live
  refine .inr ⟨kept, w', ran, stored, fun w'' course grown built' later h' name' j f' t' u' again
    takes => ?_⟩
  have reserved : 0 < w.memory.next := Nat.lt_of_lt_of_le (by decide) bounded.storage
  have below : a < w'.memory.next := by
    have live : w.store.isLive a = true := Option.isSome_iff_exists.mpr ⟨i, on.live⟩
    exact Nat.lt_of_lt_of_le (bounded.instances a live) stored.memory.next
  have remembers := course.remembers
  have stands : Codec.StandsFor w.store v w''.memory kept wanted :=
    (set.lodged.standsFor sound.toLinked reserved on.type shaped lasting).later remembers
  have there : j.properties.lookup spelling = some kept := by
    obtain ⟨i', live, _, same⟩ := remembers.store below j again.live
    have lookup := stored.stored a spelling
    rw [World.stored?, live, Option.bind_some, if_pos ⟨rfl, rfl⟩] at lookup
    rw [same, lookup]
  have database : w'.database = w.database := set.untouched.database
  obtain ⟨flags, rfl, content⟩ := on.toDeclared.later (database ▸ grown) again.toDeclared
  obtain ⟨other, shaped', like⟩ := Codec.shapeFor_later (database ▸ grown) shaped
  obtain ⟨y, shown, normalized⟩ := stands.shown t' (stands.address takes)
  refine ⟨y, ?_, normalized⟩
  rw [(reveals_get_property built'.sound again (flags ▸ readable)).shown later, there,
    World.decoding, Codec.shapeFor_congr content, shaped']
  exact congrArg (Outcome.map Except.ok) ((Codec.shapeShown_like like).trans shown)

/-- A name that finds a property in a database finds it in a world with the database. -/
theorem onProperty_of {db : Database} {info : Token} {ownership : Ownership} {property : Token}
    (database : w.database = db)
    (attached : (w.store.handle h).attachment = some ⟨a, ownership⟩)
    (typed : (w.store.handle h).info = some info) (live : w.store.instances.get? a = some i)
    (registered : db.registered? i.number = some info)
    (named : Member.property? db info name = some (property, spelling))
    (known : db.entry? property = some f) (declared : f.declared? = some t)
    (type : db.entry? t = some u) : OnProperty w h name a i property spelling f t u := by
  subst database
  exact ⟨⟨known, declared, type⟩, live, info, ⟨⟨ownership, attached⟩, typed⟩, registered, named⟩

/-- An object type with properties of a boxed record type, of integers and of texts, where the type
number of the record type is that of the object type; an interface type with a property of a
callback type; and a record type with a byte. -/
def sampleStudio : Database :=
  let flags := PropertyFlag.readable.union PropertyFlag.writable
  let widget := (({} : Database).addObject "Demo" "Widget" none false).2
  let box := (widget.addBoxed "Demo" "Box" 8 100).2
  let hooked := ((box.addCallback "Demo" "Hook").2.addInterface "Demo" "Hooked").2
  let letter := (hooked.addStruct "Demo" "Letter" 1).2
  let plain := (((letter.addType (.plain .int32)).2.addType (.plain .utf8)).2.addType
    (.plain .uint8)).2
  let types := ((plain.addType (.reference 2)).2.addType (.reference 3)).2
  let numbers := ((types.addProperty 1 "box" 9 flags).2.addProperty 1 "line-width" 6 flags).2
  let texts := ((numbers.addProperty 1 "title" 7 flags).2.addProperty 4 "title" 10 flags).2
  (texts.addField 5 "code" 8 0).2

theorem sampleStudio_built : sampleStudio.Built := by
  have entries : Database.Built (((((({} : Database).addObject "Demo" "Widget" none false).2.addBoxed
      "Demo" "Box" 8 100).2.addCallback "Demo" "Hook").2.addInterface "Demo" "Hooked").2.addStruct
      "Demo" "Letter" 1).2 := by
    refine .next (.next (.next (.next (.next .empty (.object "Demo" "Widget" false ?_))
      (.boxed "Demo" "Box" 8 100)) (.callback "Demo" "Hook")) (.interface "Demo" "Hooked"))
      (.struct "Demo" "Letter" 1)
    decide
  refine .next (.next (.next (.next (.next (.next (.next (.next (.next (.next entries
    (.type ?_)) (.type ?_)) (.type ?_)) (.type ?_)) (.type ?_)) (.property "box" _ ?_ ?_))
    (.property "line-width" _ ?_ ?_)) (.property "title" _ ?_ ?_)) (.property "title" _ ?_ ?_))
    (.field "code" 0 ?_ ?_)
  all_goals decide

/-- A world with a handle on an instance, and a handle on other memory as a boxed record. -/
def sampleDesk : World :=
  (Session.advanceAll 1
    [.makeInstance "Widget" "x", .memory "N" [] 16,
      .handle .borrowed (some (.existing "Box")) (some "N") (some "box")]
    { database := sampleStudio,
      bench := { identifiers := [("Widget", 1), ("Box", 2), ("Hooked", 4), ("Letter", 5)] } }).2

/-- The address of the instance. -/
def sampleDeskAddress : Address := (sampleDesk.bench.book.lookup "x").getD 0

theorem sampleDesk_database : sampleDesk.database = sampleStudio := by decide +kernel

theorem sampleDesk_bounded : sampleDesk.Bounded := by
  let start : World :=
    { database := sampleStudio
      bench := { identifiers := [("Widget", 1), ("Box", 2), ("Hooked", 4), ("Letter", 5)] } }
  have orderly : start.Orderly :=
    ⟨Store.accounted_empty (by decide +kernel), fun _ member => absurd member List.not_mem_nil⟩
  exact (Session.boundaries_orderly 1 _ orderly _ (Session.last_mem_boundaries 1 _ start)).bounded

/-- The types are the same, and the first handle stands for the instance. -/
structure Studio (w : World) : Prop where
  /-- The types. -/
  database : w.database = sampleStudio
  /-- What the handle is attached to. -/
  attached : (w.store.handle 1).attachment = some ⟨sampleDeskAddress, .retained⟩
  /-- The type of the handle. -/
  typed : (w.store.handle 1).info = some 1
  /-- The type of the instance. -/
  live : (w.store.instances.get? sampleDeskAddress).map Instance.number = some 100

theorem sampleDesk_studio : Studio sampleDesk := by
  refine ⟨sampleDesk_database, ?_, ?_, ?_⟩ <;> decide +kernel

/-- A name finds a property of the instance. -/
theorem Studio.onProperty {property : Token} (studio : Studio w)
    (named : Member.property? sampleStudio 1 name = some (property, spelling))
    (known : (sampleStudio.entry? property).map (fun f => (f.declared?, f.propertyFlags))
      = some (some t, ⟨3⟩))
    (type : (sampleStudio.entry? t).map (Codec.shapeFor sampleStudio) = some (.ok wanted)) :
    ∃ i f u, OnProperty w 1 name sampleDeskAddress i property spelling f t u
      ∧ f.propertyFlags = ⟨3⟩ ∧ Codec.shapeFor w.database u = .ok wanted := by
  obtain ⟨i, live, number⟩ := Option.map_eq_some_iff.mp studio.live
  obtain ⟨f, known, same⟩ := Option.map_eq_some_iff.mp known
  obtain ⟨declared, flags⟩ := Prod.mk.inj same
  obtain ⟨u, type, shaped⟩ := Option.map_eq_some_iff.mp type
  exact ⟨i, f, u, onProperty_of studio.database studio.attached studio.typed live
    (number ▸ by decide +kernel) named known declared type, flags, studio.database ▸ shaped⟩

/-- The property of integers, by either spelling. -/
theorem Studio.onWidth (studio : Studio w) (named : name = "line_width" ∨ name = "line-width") :
    ∃ i f u, OnProperty w 1 name sampleDeskAddress i 12 "line-width" f 6 u
      ∧ f.propertyFlags = ⟨3⟩
      ∧ Codec.shapeFor w.database u = .ok (.scalar (.integer ⟨32, true⟩)) := by
  refine studio.onProperty ?_ (by decide +kernel) (by decide +kernel)
  rcases named with rfl | rfl <;> decide +kernel

/-- The world after the property of integers was set. -/
def sampleDrawn : World := ((set 1 "line_width" (.int 5)).run.run (Session.calls 1) sampleDesk).2

/-- A step that sets another property. -/
def sampleTitling : List Script.Step := [.put "x" "title" (.literal (.str "b"))]

theorem sampleDrawn_set : Succeeds (Session.calls 1) (set 1 "line_width" (.int 5)) sampleDesk ()
    sampleDrawn := by
  have done : ((set 1 "line_width" (.int 5)).run.run (Session.calls 1) sampleDesk).1
      = .done (.ok ()) := by decide +kernel
  exact Prod.ext done rfl

theorem sampleTitled_studio : Studio (Session.advanceAll 1 sampleTitling sampleDrawn).2 := by
  refine ⟨?_, ?_, ?_, ?_⟩ <;> decide +kernel

/-- The step stores nothing under the name of the property of integers, and writes nothing. -/
theorem sampleTitling_course : sampleDrawn.Course
    (Request.Leaves sampleDeskAddress "line-width" fun _ => False)
    (Session.advanceAll 1 sampleTitling sampleDrawn).2 := by
  refine Session.course_advanceAll 1 sampleTitling sampleDrawn fun r member => ⟨?_, ?_⟩
  · have calm : (Session.requestsAll 1 sampleTitling sampleDrawn).all
        (fun r => !r.stores sampleDeskAddress "line-width") = true := by decide +kernel
    exact (Bool.not_eq_true' _).mp (List.all_eq_true.mp calm r member)
  · cases r <;> simp [Request.WritesInto]

theorem set_get_property_sample :
    Succeeds (Session.calls 1) (set 1 "line_width" (.int 5)) sampleDesk () sampleDrawn
      ∧ Bridge.shown (Session.calls 1) (get 1 "line-width")
        (Session.advanceAll 1 sampleTitling sampleDrawn).2 = .done (.ok (.bare (.int 5))) := by
  refine ⟨sampleDrawn_set, ?_⟩
  obtain ⟨i, f, u, on, flags, shaped⟩ := sampleDesk_studio.onWidth (.inl rfl)
  rcases set_get_property (Session.calls 1) sampleDesk (sampleDesk_database ▸ sampleStudio_built)
    sampleDesk_bounded 1 "line_width" sampleDeskAddress i 12 "line-width" f 6 u on
    (flags ▸ by decide) (flags ▸ by decide) _ shaped rfl (.int 5) with
    ⟨failure, w', failed, _⟩ | ⟨kept, w', ran, _, stays⟩
  · have wrong := failed.symm.trans sampleDrawn_set
    cases wrong
  · obtain rfl : w' = sampleDrawn := congrArg Prod.snd (ran.symm.trans sampleDrawn_set)
    have studio := sampleTitled_studio
    have drawn : sampleDrawn.database = sampleStudio := by decide +kernel
    obtain ⟨j, f', u', again, _, _⟩ := studio.onWidth (.inr rfl)
    obtain ⟨y, shown, n, number, normalized⟩ := stays _ sampleTitling_course
      (studio.database ▸ drawn ▸ .refl _) (studio.database ▸ sampleStudio_built) (Session.calls 1) 1
      "line-width" j f' 6 u' again fun _ _ => trivial
    cases number
    rw [shown, normalized]
    decide +kernel

/-- Steps that set the first byte of the text of the title.  A view of the instance as of the
interface type shows the address of the text as that of a function, and a handle on this address as
a record has a field there. -/
def sampleScribbling : List Script.Step :=
  [.handle .borrowed (some (.existing "Hooked")) (some "x") (some "view"),
    .get "view" "title" (some "raw"),
    .handle .borrowed (some (.existing "Letter")) (some "raw") (some "letter"),
    .put "letter" "code" (.literal (.int 99))]

/-- A step that declares a property whose name is the other spelling. -/
def sampleRedeclaring : List Script.Step :=
  [.declare (.property "Widget" "line_width" (.plain .int32) ⟨3⟩) none]

/-- A property is set by some name, some steps store nothing under its name, and then getting it by
the same name ends in some way. -/
def ThenGets (name : String) (v : Value) (steps : List Script.Step)
    (o : Outcome (Except Failure Shown)) : Prop :=
  ∃ i property spelling f t u w',
    OnProperty sampleDesk 1 name sampleDeskAddress i property spelling f t u
      ∧ f.propertyFlags = ⟨3⟩ ∧ Succeeds (Session.calls 1) (set 1 name v) sampleDesk () w'
      ∧ (∀ r ∈ Session.requestsAll 1 steps w', r.stores sampleDeskAddress spelling = false)
      ∧ Bridge.shown (Session.calls 1) (get 1 name) (Session.advanceAll 1 steps w').2 = o

theorem thenGets_of (property t : Nat) (spelling : String) (wanted : Codec.Shape)
    {steps : List Script.Step} {o : Outcome (Except Failure Shown)}
    (named : Member.property? sampleStudio 1 name = some (property, spelling))
    (known : (sampleStudio.entry? property).map (fun f => (f.declared?, f.propertyFlags))
      = some (some t, ⟨3⟩))
    (type : (sampleStudio.entry? t).map (Codec.shapeFor sampleStudio) = some (.ok wanted))
    (done : ((set 1 name v).run.run (Session.calls 1) sampleDesk).1 = .done (.ok ()))
    (calm : (Session.requestsAll 1 steps
      ((set 1 name v).run.run (Session.calls 1) sampleDesk).2).all
        (fun r => !r.stores sampleDeskAddress spelling) = true)
    (shown : Bridge.shown (Session.calls 1) (get 1 name) (Session.advanceAll 1 steps
      ((set 1 name v).run.run (Session.calls 1) sampleDesk).2).2 = o) :
    ThenGets name v steps o := by
  obtain ⟨i, f, u, on, flags, _⟩ := sampleDesk_studio.onProperty named known type
  exact ⟨i, property, spelling, f, t, u, _, on, flags, Prod.ext done rfl,
    fun r member => (Bool.not_eq_true' _).mp (List.all_eq_true.mp calm r member), shown⟩

/-- A property that is set is not always read back: not where the value under a record type whose
type number stands for an object type is no live instance, not where the copy of a text is written
to, and not where the same name finds another property later. -/
theorem property_not_read_back :
    ThenGets "box" (.handle 2) [] (.stopped (.notLive (sampleDesk.store.handle 2).address))
      ∧ ThenGets "title" (.str "old") sampleScribbling (.done (.ok (.bare (.str "cld"))))
      ∧ ThenGets "line_width" (.int 5) sampleRedeclaring (.done (.ok (.bare (.int 0)))) := by
  refine ⟨?_, ?_, ?_⟩
  · apply thenGets_of 11 9 "box" (.record 2 false) <;> decide +kernel
  · apply thenGets_of 13 7 "title" .text <;> decide +kernel
  · apply thenGets_of 12 6 "line-width" (.scalar (.integer ⟨32, true⟩)) <;> decide +kernel

end Handle
end ObjectBridge
