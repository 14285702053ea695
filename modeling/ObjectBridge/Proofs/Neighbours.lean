import ObjectBridge.Proofs.Spans

/-!
# Setting a field leaves other fields alone

What getting a field shows depends on few cells: on those of a value of its type at the place of the
field, and, where the value is an address of a text or of an array, on those that are read there.
Setting another field writes the bytes that its tag takes.  So as long as these lie apart, a field
shows what it showed before.

The bytes that a tag takes are those of a value of the type, except that for a value of an
enumeration eight bytes are written whatever its storage is, over whatever lies behind it.
-/

namespace ObjectBridge

open Program Bridge

variable {calls : Calls} {w w' : World} {m m' : Memory} {t : Nat} {e : Entry} {a b : Address}
  {wanted : Codec.Shape}

namespace Memory

/-- A word depends on its cells. -/
theorem readWord_congr {width : Nat} (same : ∀ i < width, m'.cell (a + i) = m.cell (a + i)) :
    m'.readWord a width = m.readWord a width := by
  have read : m'.read a width = m.read a width :=
    List.map_congr_left fun i member => by rw [byte, byte, same i (List.mem_range.mp member)]
  rw [readWord, readWord, read]

/-- A slot depends on its cells. -/
theorem readSlot_congr {width : Nat} (same : ∀ i < width, m'.cell (a + i) = m.cell (a + i)) :
    m'.readSlot a width = m.readSlot a width := by
  rw [readSlot, readSlot, readWord_congr same]
  split
  · next eight => rw [readAddress_congr fun i within => same i (eight ▸ within)]
  · rfl

/-- The addresses that decoding an address as an array looks at. -/
def ArraySpan (m : Memory) (a : Address) (element : Tag) (zeroTerminated : Bool) :
    Option Nat → Address → Prop
  | some count, b =>
    if element.isString then m.TextsSpan a count b
    else
      match element.scalar? with
      | some s => a ≤ b ∧ b < a + count * s.bytes
      | none => False
  | none, b => element.isString = true ∧ zeroTerminated = true ∧ ∃ limit, m.TextsSpan a limit b

end Memory

namespace Codec

theorem readElements_congr {s : Scalar} {count : Nat}
    (same : ∀ b, a ≤ b ∧ b < a + count * s.bytes → m'.cell b = m.cell b) :
    readElements m' s a count = readElements m s a count := by
  have words : elementWords m' s a count = elementWords m s a count := by
    refine List.map_congr_left fun k member => Memory.readWord_congr fun i within => ?_
    have room : (k + 1) * s.bytes ≤ count * s.bytes :=
      Nat.mul_le_mul_right _ (List.mem_range.mp member)
    rw [Nat.add_mul, Nat.one_mul] at room
    refine same _ ⟨Nat.le_trans (Nat.le_add_right _ _) (Nat.le_add_right _ _), ?_⟩
    rw [Nat.add_assoc]
    exact Nat.add_lt_add_left (Nat.lt_of_lt_of_le (Nat.add_lt_add_left within _) room) a
  simp only [readElements, words]

/-- An array depends on the cells that decoding it looks at. -/
theorem decodeArray_congr {element : Tag} {zero : Bool} {size : Option Nat}
    (grown : m.extent ≤ m'.extent)
    (same : ∀ b, a ≠ 0 → m.ArraySpan a element zero size b → m'.cell b = m.cell b) :
    decodeArray m' a element zero size = decodeArray m a element zero size := by
  unfold decodeArray
  split
  · rfl
  next present =>
  cases size with
  | some count =>
    dsimp only
    by_cases string : element.isString = true
    · simp only [Memory.ArraySpan, if_pos string] at same
      rw [if_pos string, if_pos string, Memory.texts_congr fun b => same b present]
    · simp only [Memory.ArraySpan, if_neg string] at same
      rw [if_neg string, if_neg string]
      cases scalar : element.scalar? with
      | none => rfl
      | some s =>
        rw [scalar] at same
        exact congrArg Value.array (readElements_congr fun b => same b present)
  | none =>
    dsimp only
    by_cases strings : (element.isString && zero) = true
    · obtain ⟨string, terminated⟩ := (Bool.and_eq_true _ _).mp strings
      have texts (limit : Nat) : m'.texts a limit = m.texts a limit :=
        Memory.texts_congr fun b inside => same b present ⟨string, terminated, limit, inside⟩
      rw [if_pos strings, if_pos strings, texts, Memory.texts_extent grown]
    · rw [if_neg strings, if_neg strings]

/-- The addresses that decoding an address in a shape looks at. -/
def Shape.Visits (w : World) (a : Address) : Shape → Address → Prop
  | .text, b => a ≠ 0 ∧ w.memory.TextSpan a b
  | .array element zero size, b =>
    a ≠ 0 ∧ w.memory.ArraySpan a (w.database.tagOf element) zero size b
  | _, _ => False

/-- What is seen of a slot depends on the cells that decoding it looks at. -/
theorem shapeShown_congr {slot : Slot} (grown : w.memory.extent ≤ m.extent)
    (same : ∀ b, wanted.Visits w slot.address b → m.cell b = w.memory.cell b) :
    ({ w with memory := m }).shapeShown slot t wanted = w.shapeShown slot t wanted := by
  cases wanted with
  | text =>
    simp only [World.shapeShown, decodeText]
    split
    · rfl
    · next present => rw [Memory.text_congr fun b inside => same b ⟨present, inside⟩]
  | array element zero size =>
    exact congrArg (fun x => Outcome.done (Shown.bare x))
      (decodeArray_congr grown fun b present inside => same b ⟨present, inside⟩)
  | _ => rfl

/-- The values of an enumeration are stored as integers of some tag. -/
theorem storage_of_shapeForTarget {db : Database} {target : Token} {f : IntegerFormat}
    (shaped : shapeForTarget db target e = .ok (.enumeration f)) :
    ∃ storage : Tag, storage.integer? = some f := by
  unfold shapeForTarget at shaped
  split at shaped
  · split at shaped
    · next stored => cases shaped; exact ⟨_, stored⟩
    · cases shaped
  · repeat' split at shaped
    all_goals cases shaped

theorem storage_of_shapeFor {db : Database} {f : IntegerFormat}
    (shaped : shapeFor db e = .ok (.enumeration f)) :
    ∃ storage : Tag, storage.integer? = some f := by
  have tagged : e.tag = .interface := tagged_of_shapeFor shaped
  rw [shapeFor, tagged] at shaped
  dsimp only at shaped
  repeat' split at shaped
  · exact storage_of_shapeForTarget shaped
  all_goals cases shaped

/-- An integer depends on its own bytes, also where it is read from eight. -/
theorem toInteger_congr {storage : Tag} {f : IntegerFormat} (integral : storage.integer? = some f)
    (same : ∀ i < (Scalar.integer f).bytes, m'.cell (a + i) = m.cell (a + i)) :
    (m'.readSlot a 8).toInteger f = (m.readSlot a 8).toInteger f := by
  have within : (Scalar.integer f).bytes ≤ 8 := by
    revert integral
    cases storage <;> rintro ⟨⟩ <;> decide
  have low (m : Memory) :
      (m.readSlot a 8).word % f.count = m.readWord a (Scalar.integer f).bytes := by
    rw [IntegerFormat.count_bytes integral]
    exact m.readAddress_mod a within
  rw [Slot.toInteger, Slot.toInteger, IntegerFormat.read, IntegerFormat.read, low, low,
    Memory.readWord_congr same]

end Codec

namespace World

/-- The addresses that getting a value of a type at some place looks at: those of the value, and
those that it leads to. -/
def Watches (w : World) (b : Address) (e : Entry) (x : Address) : Prop :=
  match Codec.shapeFor w.database e with
  | .ok wanted => b ≤ x ∧ x < b + wanted.width
    ∨ wanted.Visits w (w.memory.readSlot b e.tag.fieldWidth).address x
  | .error _ => False

/-- For a number the bytes of its type are looked at, and nothing else. -/
theorem Watches.within {x : Address} (shaped : Codec.shapeFor w.database e = .ok wanted)
    (number : (∃ s, wanted = .scalar s) ∨ ∃ format, wanted = .enumeration format)
    (watched : w.Watches b e x) : b ≤ x ∧ x < b + wanted.width := by
  rw [Watches, shaped] at watched
  obtain ⟨_, rfl⟩ | ⟨_, rfl⟩ := number <;> exact watched.resolve_right id

/-- What is seen of a value at some place depends on the cells that getting it looks at. -/
theorem decoding_congr (grown : w.memory.extent ≤ m.extent)
    (same : ∀ x, w.Watches b e x → m.cell x = w.memory.cell x) :
    ({ w with memory := m }).decoding (m.readSlot b e.tag.fieldWidth) t e
      = w.decoding (w.memory.readSlot b e.tag.fieldWidth) t e := by
  rw [decoding, decoding]
  dsimp only
  cases shaped : Codec.shapeFor w.database e with
  | error f => rfl
  | ok wanted =>
    simp only [Watches, shaped] at same
    have own (i : Nat) (within : i < wanted.width) : m.cell (b + i) = w.memory.cell (b + i) :=
      same _ (.inl ⟨Nat.le_add_right b i, Nat.add_lt_add_left within b⟩)
    refine congrArg (Outcome.map Except.ok) ?_
    by_cases enumerated : ∃ f, wanted = .enumeration f
    · obtain ⟨f, rfl⟩ := enumerated
      obtain ⟨storage, integral⟩ := Codec.storage_of_shapeFor shaped
      have tagged : e.tag = .interface := Codec.tagged_of_shapeFor shaped
      have integer := Codec.toInteger_congr integral own
      simp only [shapeShown, Codec.decodeScalar, tagged, Tag.fieldWidth, integer]
    · have width : e.tag.fieldWidth = wanted.width :=
        (Codec.tagged_of_shapeFor shaped).width fun f same => enumerated ⟨f, same⟩
      have slot : m.readSlot b e.tag.fieldWidth = w.memory.readSlot b e.tag.fieldWidth :=
        Memory.readSlot_congr (width ▸ own)
      rw [slot]
      exact Codec.shapeShown_congr grown fun x inside => same x (.inr inside)

end World

namespace Handle

variable {h : HandleId} {name : String} {f : Entry} {field : Token}

/-- Getting a field shows the same in two worlds that differ in memory, but not in the cells that it
looks at. -/
theorem shown_get_field_congr (sound : w.database.Sound) (on : OnField w h name a field f t e)
    (alike : ({ w with memory := w'.memory }).Untouched w')
    (grown : w.memory.extent ≤ w'.memory.extent)
    (same : ∀ x, w.Watches (a + f.offset) e x → w'.memory.cell x = w.memory.cell x) :
    Bridge.shown calls (get h name) w' = Bridge.shown calls (get h name) w := by
  have database : w'.database = w.database := alike.database
  have handles : w'.store.handles = w.store.handles := by rw [alike.alike.rest]
  have resembles : ({ w with memory := w'.memory }).Resembles w' :=
    alike.looked.resembles rfl
  rw [(reveals_get_field (database ▸ sound) (on.congr database handles)).shown calls,
    (reveals_get_field sound on).shown calls, resembles.decoding, World.decoding_congr grown same]

/-- Setting a field leaves other fields alone.  Setting a member that is found as a field ends.
Where it fails nothing changed, and where it succeeds getting another member that is found as a
field, of the same instance or of another one, shows what it showed before, if what is looked at
for it lies in reserved memory, apart from the bytes that the tag of the field takes. -/
theorem set_field_apart (calls : Calls) (w : World) (built : w.database.Built) (h : HandleId)
    (name : String) (a : Address) (field : Token) (f : Entry) (t : Token) (e : Entry)
    (on : OnField w h name a field f t e) (v : Value) :
    (∃ failure w', Fails calls (set h name v) w failure w' ∧ w.Untouched w')
      ∨ ∃ w', Succeeds calls (set h name v) w () w' ∧
        ∀ h' name' a' other g u k, OnField w h' name' a' other g u k →
          (∀ x, w.Watches (a' + g.offset) k x → x < w.memory.next
            ∧ (x < a + f.offset ∨ a + f.offset + e.tag.fieldWidth ≤ x)) →
          Bridge.shown calls (get h' name') w' = Bridge.shown calls (get h' name') w := by
  rcases concludes_set_field calls v built.sound on with
    ⟨failure, w', failed, _⟩ | ⟨_, w', ran, kept, m, lodged, memory, untouched⟩
  · exact .inl ⟨failure, w', failed, untouched_of_set failed⟩
  · refine .inr ⟨w', ran, fun h' name' a' other g u k beside apart => ?_⟩
    have grown := lodged.extends
    refine shown_get_field_congr built.sound beside untouched ?_ fun x watched => ?_
    · rw [memory]
      exact Nat.le_trans grown.extent (Nat.le_add_left _ _)
    · obtain ⟨reserved, outside⟩ := apart x watched
      rw [memory, m.cell_write_apart (by rwa [Cell.length_ofSlot]), grown.cells x reserved]

/-- A record type with two fields of four bytes one after the other, the first of an enumeration. -/
def samplePair : Database :=
  let mode := (({} : Database).addEnum "Demo" "Mode" .int32 []).2
  let pair := (mode.addStruct "Demo" "Pair" 8).2
  let types := ((pair.addType (.reference 1)).2.addType (.plain .int32)).2
  ((types.addField 2 "mode" 3 0).2.addField 2 "second" 4 4).2

theorem samplePair_built : samplePair.Built := by
  refine .next (.next (.next (.next (.next (.next .empty (.enum "Demo" "Mode" .int32 []))
    (.struct "Demo" "Pair" 8)) (.type ?_)) (.type ?_)) (.field "mode" 0 ?_ ?_))
    (.field "second" 4 ?_ ?_)
  all_goals decide

/-- A world with a handle on a pair of one and seven. -/
def samplePairWorld : World :=
  (Session.advanceAll 1
    [.memory "M" [1, 0, 0, 0, 7, 0, 0, 0] 16,
      .handle .borrowed (some (.existing "Pair")) (some "M") (some "pair")]
    { database := samplePair, bench := { identifiers := [("Pair", 2)] } }).2

/-- The address of the pair. -/
def samplePairAddress : Address := (samplePairWorld.bench.book.lookup "M").getD 0

theorem samplePairWorld_database : samplePairWorld.database = samplePair := by decide +kernel

/-- A name finds a field of the pair, whose type has a shape. -/
theorem samplePair_onField {name : String} {field t offset : Nat} {wanted : Codec.Shape}
    (hidden : Member.property? samplePair 2 name = none)
    (named : Member.field? samplePair 2 name = some (field, name))
    (known : (samplePair.entry? field).map (fun f => (f.declared?, f.offset))
      = some (some t, offset))
    (type : (samplePair.entry? t).map (Codec.shapeFor samplePair) = some (.ok wanted)) :
    ∃ f e, OnField samplePairWorld 1 name samplePairAddress field f t e ∧ f.offset = offset
      ∧ Codec.shapeFor samplePairWorld.database e = .ok wanted := by
  obtain ⟨f, known, same⟩ := Option.map_eq_some_iff.mp known
  obtain ⟨declared, offset⟩ := Prod.mk.inj same
  obtain ⟨e, type, shaped⟩ := Option.map_eq_some_iff.mp type
  have attached : (samplePairWorld.store.handle 1).attachment
      = some ⟨samplePairAddress, .borrowed⟩ := by decide +kernel
  exact ⟨f, e, onField_of samplePairWorld_database attached (by decide +kernel) hidden named known
    declared type (by decide +kernel), offset, samplePairWorld_database ▸ shaped⟩

theorem samplePair_mode : ∃ f e, OnField samplePairWorld 1 "mode" samplePairAddress 5 f 3 e
    ∧ f.offset = 0
    ∧ Codec.shapeFor samplePairWorld.database e = .ok (.enumeration ⟨32, true⟩) := by
  apply samplePair_onField <;> decide +kernel

theorem samplePair_second : ∃ f e, OnField samplePairWorld 1 "second" samplePairAddress 6 f 4 e
    ∧ f.offset = 4
    ∧ Codec.shapeFor samplePairWorld.database e = .ok (.scalar (.integer ⟨32, true⟩)) := by
  apply samplePair_onField <;> decide +kernel

theorem set_field_apart_sample :
    ∃ w', Succeeds (Session.calls 1) (set 1 "second" (.int 9)) samplePairWorld () w'
      ∧ Bridge.shown (Session.calls 1) (get 1 "mode") w' = .done (.ok (.bare (.int 1))) := by
  obtain ⟨f, e, on, offset, shaped⟩ := samplePair_second
  obtain ⟨g, k, beside, start, enumerated⟩ := samplePair_mode
  have width : e.tag.fieldWidth = 4 := (Codec.tagged_of_shapeFor shaped).width nofun
  rcases set_field_apart (Session.calls 1) samplePairWorld
    (samplePairWorld_database ▸ samplePair_built) 1 "second" samplePairAddress 6 f 4 e on
    (.int 9) with ⟨failure, w', failed, _⟩ | ⟨w', ran, apart⟩
  · have done : ((set 1 "second" (.int 9)).run.run (Session.calls 1) samplePairWorld).1
        = .done (.ok ()) := by decide +kernel
    rw [failed] at done
    cases done
  · have reserved : samplePairAddress + 4 ≤ samplePairWorld.memory.next := by decide +kernel
    refine ⟨w', ran, ?_⟩
    rw [apart 1 "mode" samplePairAddress 5 g 3 k beside fun x watched => ?_]
    · decide +kernel
    · obtain ⟨_, below⟩ := watched.within enumerated (.inr ⟨_, rfl⟩)
      rw [start] at below
      rw [offset]
      exact ⟨Nat.lt_of_lt_of_le below reserved, .inl below⟩

/-- Setting a field of an enumeration that is stored in four bytes writes eight, and so changes the
field behind it, although the values of the two types lie apart. -/
theorem enumeration_overwrites :
    ¬∀ (w : World) (h : HandleId) (name : String) (a : Address) (field : Token) (f : Entry)
      (t : Token) (e : Entry) (wanted : Codec.Shape) (v : Value) (w' : World) (name' : String)
      (other : Token) (g : Entry) (u : Token) (k : Entry),
      w.database.Built → OnField w h name a field f t e →
      Codec.shapeFor w.database e = .ok wanted → OnField w h name' a other g u k →
      (∀ x, w.Watches (a + g.offset) k x → x < w.memory.next
        ∧ (x < a + f.offset ∨ a + f.offset + wanted.width ≤ x)) →
      Succeeds (Session.calls 1) (set h name v) w () w' →
      Bridge.shown (Session.calls 1) (get h name') w'
        = Bridge.shown (Session.calls 1) (get h name') w := by
  intro unchanged
  obtain ⟨f, e, on, offset, shaped⟩ := samplePair_mode
  obtain ⟨g, k, beside, start, number⟩ := samplePair_second
  let w' := ((set 1 "mode" (.int 1)).run.run (Session.calls 1) samplePairWorld).2
  have done : ((set 1 "mode" (.int 1)).run.run (Session.calls 1) samplePairWorld).1
      = .done (.ok ()) := by decide +kernel
  have reserved : samplePairAddress + 4 + 4 ≤ samplePairWorld.memory.next := by decide +kernel
  have same := unchanged samplePairWorld 1 "mode" samplePairAddress 5 f 3 e _ (.int 1) w' "second" 6
    g 4 k (samplePairWorld_database ▸ samplePair_built) on shaped beside
    (fun x watched => by
      obtain ⟨above, below⟩ := watched.within number (.inl ⟨_, rfl⟩)
      rw [start] at above below
      rw [offset]
      exact ⟨Nat.lt_of_lt_of_le below reserved, .inr above⟩)
    (Prod.ext done rfl)
  have before : Bridge.shown (Session.calls 1) (get 1 "second") samplePairWorld
      = .done (.ok (.bare (.int 7))) := by decide +kernel
  have after : Bridge.shown (Session.calls 1) (get 1 "second") w'
      = .done (.ok (.bare (.int 0))) := by decide +kernel
  rw [before, after] at same
  cases same

end Handle
end ObjectBridge
