import ObjectBridge.Proofs.Storing
import ObjectBridge.Proofs.Elements
import ObjectBridge.Proofs.Vectors

/-!
# Fields are read back

A field is stored in as many bytes as its tag takes, and read from as many.  So whatever lay there
before, a value that is set is read back as its type normalizes it, at any offset.
-/

namespace ObjectBridge

open Program Bridge

variable {calls : Calls} {w w' : World} {m m' : Memory} {t : Nat} {e f : Entry} {v : Value}
  {slot kept : Slot} {s : Store} {a b : Address} {tag : Tag}

theorem Cell.length_ofSlot (width : Nat) (slot : Slot) : (ofSlot width slot).length = width := by
  unfold ofSlot
  split
  · next eight => rw [length_ofAddress, eight]
  · rw [ofNumber, length_ofBytes, length_bytesOf]

namespace Memory

/-- A slot that fits into its bytes is read back from them. -/
theorem readSlot_write (m : Memory) (b : Address) {width : Nat}
    (fits : width = 8 ∨ slot.word < 256 ^ width) :
    (m.write b (Cell.ofSlot width slot)).readSlot b width = slot := by
  have lies := m.lies_write b (Cell.ofSlot width slot)
  by_cases eight : width = 8
  · rw [readSlot, if_pos eight]
    rw [Cell.ofSlot, if_pos eight] at lies ⊢
    exact congrArg Slot.mk lies.readAddress
  · have below : slot.word < 256 ^ width := fits.resolve_left eight
    rw [readSlot, if_neg eight]
    rw [Cell.ofSlot, if_neg eight] at lies ⊢
    have bytes : (m.write b (Cell.ofNumber width slot.word)).Lies b
        (Cell.ofBytes (Cell.bytesOf width slot.word)) := lies
    have read := bytes.read
    rw [Cell.length_bytesOf] at read
    rw [readWord, read, wordOf_bytesOf, Nat.mod_eq_of_lt below]

/-- A string keeps its bytes when other storage is written. -/
theorem Holds.write {bytes : List UInt8} (holds : m.Holds a bytes) {cells : List Cell}
    (apart : b + cells.length ≤ a) : (m.write b cells).Holds a bytes where
  plain := holds.plain
  read := by
    rw [← holds.read]
    refine List.map_congr_left fun i _ => ?_
    rw [byte, byte, m.cell_write_apart (.inr (Nat.le_trans apart (Nat.le_add_right a i)))]
  reserved := holds.reserved
  extent := Nat.lt_of_lt_of_le holds.extent (Nat.le_add_left _ _)

end Memory

namespace Codec

variable {wanted : Shape}

/-- The number of bytes of a value in a shape: that of a number, also of one that stands for a value
of an enumeration, four for a truth value, and eight for an address. -/
def Shape.width : Shape → Nat
  | .boolean => 4
  | .scalar s => s.bytes
  | .enumeration f => (Scalar.integer f).bytes
  | _ => 8

/-- A field takes as many bytes as a value of its type, unless the values stand for those of an
enumeration. -/
theorem Shape.Tagged.width (tagged : wanted.Tagged tag) (plain : ∀ f, wanted ≠ .enumeration f) :
    tag.fieldWidth = wanted.width := by
  cases wanted with
  | enumeration f => exact absurd rfl (plain f)
  | scalar s =>
    revert tagged
    cases tag <;> simp [Tagged, Tag.scalar?, Tag.fieldWidth, Shape.width] <;> rintro rfl <;> rfl
  | text =>
    revert tagged
    cases tag <;> simp [Tagged, Tag.isString, Tag.fieldWidth, Shape.width]
  | list => rcases tagged with rfl | rfl <;> rfl
  | _ => cases tagged; rfl

/-- The slot of a value in a lasting shape fits into a field. -/
theorem StandsFor.fits (stands : StandsFor s v m slot wanted) (tagged : wanted.Tagged tag) :
    tag.fieldWidth = 8 ∨ slot.word < 256 ^ tag.fieldWidth := by
  cases wanted with
  | boolean =>
    cases tagged
    have truth : slot = .ofBool (truthy s v) := stands
    subst truth
    exact .inr (by cases truthy s v <;> decide)
  | scalar number =>
    cases number with
    | integer f =>
      obtain ⟨n, _, same⟩ := stands
      subst same
      have integral : tag.integer? = some f := by rw [Tag.integer?, tagged]
      right
      have width : tag.fieldWidth = (Scalar.integer f).bytes :=
        tagged.width fun _ other => by cases other
      rw [width, ← IntegerFormat.count_bytes integral]
      exact f.wrap_lt n.toInt
    | float | double => exact absurd stands id
  | enumeration _ | object _ | interface _ | record _ _ =>
    cases tagged
    exact .inl rfl
  | text => exact .inl (tagged.width fun _ other => by cases other)
  | _ => exact absurd stands id

/-- What is kept of a text lies in new storage. -/
theorem Lodges.fresh (lodges : Lodges calls w v t tag kept m) (string : tag.isString = true) :
    kept.address = 0 ∨ w.memory.next ≤ kept.address := by
  obtain ⟨slot, block, w₁, w₂, _, encoded, first, _, copied⟩ := lodges
  cases null : slot.isNull with
  | true =>
    left
    rw [copied.plain (.inr null)]
    exact of_decide_eq_true null
  | false =>
    have grown : w.memory.Extends w₂.memory := first.trans (silent_encode.extends encoded)
    exact .inr (Nat.le_trans grown.next (copied.text string null).1)

/-- What is kept of a value stands for it when the bytes of a field are written as well. -/
theorem StandsFor.write (stands : StandsFor s v m kept wanted) {cells : List Cell}
    (apart : wanted = .text → kept.address = 0 ∨ b + cells.length ≤ kept.address) :
    StandsFor s v (m.write b cells) kept wanted := by
  match wanted, stands with
  | .boolean, stands | .scalar (.integer f), stands | .enumeration f, stands
  | .object _, stands | .interface _, stands | .record _ _, stands => exact stands
  | .text, .inl absent => exact .inl absent
  | .text, .inr ⟨text, same, present, held⟩ =>
    exact .inr ⟨text, same, present, held.write ((apart rfl).resolve_left present)⟩

/-- Only the address that a value stands for matters to what a shape takes. -/
theorem StandsFor.address (stands : StandsFor s v m slot wanted)
    (takes : ∀ b, addressOf s v = .ok b → wanted.Takes w b) : wanted.Takes w slot.address := by
  match wanted, stands with
  | .object _, stands | .record _ _, stands => exact takes _ stands
  | .boolean, _ | .scalar (.integer _), _ | .enumeration _, _ | .text, _ | .interface _, _ =>
    exact trivial

theorem Shape.Takes.congr (takes : wanted.Takes w b) (database : w'.database = w.database)
    (instances : w'.store.instances = w.store.instances) : wanted.Takes w' b := by
  cases wanted with
  | object _ | record _ _ => simpa only [Takes, Store.isLive, database, instances] using takes
  | _ => exact trivial

end Codec

namespace Handle

variable {h : HandleId} {name : String} {wanted : Codec.Shape} {field : Token}

theorem OnField.congr (on : OnField w h name a field f t e) (database : w'.database = w.database)
    (handles : w'.store.handles = w.store.handles) : OnField w' h name a field f t e := by
  have record : w'.store.handle h = w.store.handle h := by rw [Store.handle, Store.handle, handles]
  obtain ⟨⟨known, declared, type⟩, ⟨info, spelling, bound, hidden, named⟩, present⟩ := on
  exact ⟨⟨database ▸ known, declared, database ▸ type⟩,
    ⟨info, spelling, ⟨record ▸ bound.attached, record ▸ bound.typed⟩, database ▸ hidden,
      database ▸ named⟩, present⟩

/-- A name that finds a field in a database finds it in a world with the database. -/
theorem onField_of {db : Database} {info : Token} {ownership : Ownership} {spelling : String}
    (database : w.database = db)
    (attached : (w.store.handle h).attachment = some ⟨a, ownership⟩)
    (typed : (w.store.handle h).info = some info) (hidden : Member.property? db info name = none)
    (named : Member.field? db info name = some (field, spelling))
    (known : db.entry? field = some f) (declared : f.declared? = some t)
    (type : db.entry? t = some e) (present : a ≠ 0) : OnField w h name a field f t e := by
  subst database
  exact ⟨⟨known, declared, type⟩, ⟨info, spelling, ⟨⟨ownership, attached⟩, typed⟩, hidden, named⟩,
    present⟩

/-- A field is read back.  Setting a member that is found as a field of a lasting shape ends.  Where
it fails nothing changed, and where it succeeds getting the member shows the value as its type
normalizes it, at any offset and whatever the bytes of the field held before, if they all lie in
reserved memory.  A value under an object type has to be absent or a live instance, and so has a
value under a record type whose type number stands for an object type. -/
theorem set_get_field (calls : Calls) (w : World) (built : w.database.Built) (h : HandleId)
    (name : String) (a : Address) (field : Token) (f : Entry) (t : Token) (e : Entry)
    (on : OnField w h name a field f t e) (wanted : Codec.Shape)
    (shaped : Codec.shapeFor w.database e = .ok wanted) (lasting : wanted.isLasting = true)
    (complete : a + f.offset + wanted.width ≤ w.memory.next) (v : Value)
    (takes : ∀ b, Codec.addressOf w.store v = .ok b → wanted.Takes w b) :
    (∃ failure w', Fails calls (set h name v) w failure w' ∧ w.Untouched w')
      ∨ ∃ w' y, Succeeds calls (set h name v) w () w'
        ∧ Bridge.shown calls (get h name) w' = .done (.ok y)
        ∧ Codec.Normalized w.store v w' t y wanted := by
  have sound := built.sound
  have reserved : 0 < w.memory.next := by
    refine Nat.lt_of_lt_of_le (Nat.pos_of_ne_zero on.present) (Nat.le_trans ?_ complete)
    exact Nat.le_trans (Nat.le_add_right a _) (Nat.le_add_right _ _)
  rcases concludes_set_field calls v sound on with
    ⟨failure, w', failed, _⟩ | ⟨_, w', ran, kept, m, lodged, memory, untouched⟩
  · exact .inl ⟨failure, w', failed, untouched_of_set failed⟩
  · right
    have database : w'.database = w.database := untouched.database
    have handles : w'.store.handles = w.store.handles := by rw [untouched.alike.rest]
    have tagged := Codec.tagged_of_shapeFor shaped
    have stands : Codec.StandsFor w.store v w'.memory kept wanted := by
      rw [memory]
      refine (lodged.standsFor sound.toLinked reserved on.type shaped lasting).write fun text => ?_
      subst text
      refine (lodged.fresh tagged).imp id fun fresh => Nat.le_trans ?_ fresh
      rwa [Cell.length_ofSlot, tagged.width nofun]
    have slot : w'.memory.readSlot (a + f.offset) e.tag.fieldWidth = kept := by
      rw [memory]
      exact m.readSlot_write _ (stands.fits tagged)
    obtain ⟨y, shown, normalized⟩ := stands.shown t ((stands.address takes).congr database
      untouched.instances)
    refine ⟨w', y, ran, ?_, normalized⟩
    rw [(reveals_get_field (database ▸ sound) (on.congr database handles)).shown calls, slot,
      World.decoding, database, shaped]
    exact congrArg (Outcome.map Except.ok) shown

/-- A record type with a field of two bytes and one of a record type, whose type number is that of
an object type. -/
def sampleHolder : Database :=
  let widget := (({} : Database).addObject "Demo" "Widget" none false).2
  let box := (widget.addBoxed "Demo" "Box" 8 100).2
  let holder := (box.addStruct "Demo" "Holder" 16).2
  let types := ((holder.addType (.reference 2)).2.addType (.plain .uint16)).2
  ((types.addField 3 "box" 4 0).2.addField 3 "code" 5 9).2

theorem sampleHolder_built : sampleHolder.Built := by
  refine .next (.next (.next (.next (.next (.next (.next .empty
    (.object "Demo" "Widget" false ?_)) (.boxed "Demo" "Box" 8 100)) (.struct "Demo" "Holder" 16))
    (.type ?_)) (.type ?_)) (.field "box" 0 ?_ ?_)) (.field "code" 9 ?_ ?_)
  all_goals decide

/-- A world with a handle on a record, whose bytes are all ones, and a handle on other memory. -/
def sampleRecord : World :=
  (Session.advanceAll 1
    [.memory "M" (List.replicate 16 255) 16, .memory "N" [] 16,
      .handle .borrowed (some (.existing "Holder")) (some "M") (some "holder"),
      .handle .borrowed (some (.existing "Box")) (some "N") (some "box")]
    { database := sampleHolder, bench := { identifiers := [("Holder", 3), ("Box", 2)] } }).2

/-- The address of the record. -/
def sampleRecordAddress : Address := (sampleRecord.bench.book.lookup "M").getD 0

theorem sampleRecord_database : sampleRecord.database = sampleHolder := by decide +kernel

/-- A name finds a field of the record. -/
theorem sampleRecord_onField {name : String} {field t : Nat} {f e : Entry}
    (hidden : Member.property? sampleHolder 3 name = none)
    (named : Member.field? sampleHolder 3 name = some (field, name))
    (known : sampleHolder.entry? field = some f) (declared : f.declared? = some t)
    (type : sampleHolder.entry? t = some e) :
    OnField sampleRecord 1 name sampleRecordAddress field f t e := by
  have attached : (sampleRecord.store.handle 1).attachment
      = some ⟨sampleRecordAddress, .borrowed⟩ := by decide +kernel
  exact onField_of sampleRecord_database attached (by decide +kernel) hidden named known declared
    type (by decide +kernel)

theorem set_get_field_sample :
    ∃ w', Succeeds (Session.calls 1) (set 1 "code" (.int 70000)) sampleRecord () w'
      ∧ Bridge.shown (Session.calls 1) (get 1 "code") w' = .done (.ok (.bare (.int 4464))) := by
  have known :
      (sampleHolder.entry? 7).map (fun f => (f.declared?, f.offset)) = some (some 5, 9) := by
    decide +kernel
  obtain ⟨f, known, same⟩ := Option.map_eq_some_iff.mp known
  obtain ⟨declared, offset⟩ := Prod.mk.inj same
  have typed : (sampleHolder.entry? 5).map (Codec.shapeFor sampleHolder)
      = some (.ok (.scalar (.integer ⟨16, false⟩))) := by decide +kernel
  obtain ⟨e, type, shaped⟩ := Option.map_eq_some_iff.mp typed
  have on : OnField sampleRecord 1 "code" sampleRecordAddress 7 f 5 e :=
    sampleRecord_onField (by decide +kernel) (by decide +kernel) known declared
      type
  have complete : sampleRecordAddress + 9 + 2 ≤ sampleRecord.memory.next := by decide +kernel
  rcases set_get_field (Session.calls 1) sampleRecord (sampleRecord_database ▸ sampleHolder_built)
    1 "code" sampleRecordAddress 7 f 5 e on (.scalar (.integer ⟨16, false⟩))
    (sampleRecord_database ▸ shaped) rfl (offset ▸ complete) (.int 70000) (fun _ _ => trivial) with
    ⟨failure, w', failed, _⟩ | ⟨w', y, ran, shown, n, number, normalized⟩
  · have done : ((set 1 "code" (.int 70000)).run.run (Session.calls 1) sampleRecord).1
        = .done (.ok ()) := by decide +kernel
    rw [failed] at done
    cases done
  · cases number
    refine ⟨w', ran, ?_⟩
    rw [shown, normalized]
    decide +kernel

/-- A value under a record type whose type number stands for an object type is accepted, and then
getting the member panics because the value is no live instance. -/
theorem record_not_read_back :
    ¬∀ (w : World) (h : HandleId) (name : String) (a : Address) (field : Token) (f : Entry)
      (t : Token) (e : Entry) (wanted : Codec.Shape) (v : Value) (w' : World),
      w.database.Built → OnField w h name a field f t e →
      Codec.shapeFor w.database e = .ok wanted → wanted.isLasting = true →
      a + f.offset + wanted.width ≤ w.memory.next →
      (∀ target b, wanted = .object target → Codec.addressOf w.store v = .ok b →
        b = 0 ∨ w.store.isLive b = true) →
      Succeeds (Session.calls 1) (set h name v) w () w' →
      ∃ y, Bridge.shown (Session.calls 1) (get h name) w' = .done (.ok y) := by
  intro returns
  have known :
      (sampleHolder.entry? 6).map (fun f => (f.declared?, f.offset)) = some (some 4, 0) := by
    decide +kernel
  obtain ⟨f, known, same⟩ := Option.map_eq_some_iff.mp known
  obtain ⟨declared, offset⟩ := Prod.mk.inj same
  have typed : (sampleHolder.entry? 4).map (Codec.shapeFor sampleHolder)
      = some (.ok (.record 2 false)) := by decide +kernel
  obtain ⟨e, type, shaped⟩ := Option.map_eq_some_iff.mp typed
  have on : OnField sampleRecord 1 "box" sampleRecordAddress 6 f 4 e :=
    sampleRecord_onField (by decide +kernel) (by decide +kernel) known declared
      type
  have complete : sampleRecordAddress + 0 + 8 ≤ sampleRecord.memory.next := by decide +kernel
  let w' := ((set 1 "box" (.handle 2)).run.run (Session.calls 1) sampleRecord).2
  have done : ((set 1 "box" (.handle 2)).run.run (Session.calls 1) sampleRecord).1
      = .done (.ok ()) := by decide +kernel
  obtain ⟨y, shown⟩ := returns sampleRecord 1 "box" sampleRecordAddress 6 f 4 e (.record 2 false)
    (.handle 2) w' (sampleRecord_database ▸ sampleHolder_built) on
    (sampleRecord_database ▸ shaped) rfl (offset ▸ complete) nofun (Prod.ext done rfl)
  have stopped : (match Bridge.shown (Session.calls 1) (get 1 "box") w' with
      | .stopped _ => true
      | .done _ => false) = true := by decide +kernel
  rw [shown] at stopped
  cases stopped

end Handle
end ObjectBridge
