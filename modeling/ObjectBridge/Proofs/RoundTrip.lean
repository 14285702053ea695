import ObjectBridge.Codec.Decode
import ObjectBridge.Codec.Encode
import ObjectBridge.Proofs.Formats
import ObjectBridge.Proofs.Giving
import ObjectBridge.Proofs.References
import ObjectBridge.Proofs.Strings

/-!
# Values come back

A value that is encoded under a type and decoded again under the same type comes back: an integer as
the one in the range of its format with the same low bits, a truth value as one or zero, and a text
as it was.  A slot that is decoded and encoded again keeps the low bits that its type has.
-/

namespace ObjectBridge

theorem World.Reached.truthy {w w₁ : World} {m : Memory} (reached : w.Reached w₁ m) (v : Value) :
    Codec.truthy w₁.store v = Codec.truthy w.store v := by
  cases v with
  | handle h => rw [Codec.truthy, Codec.truthy, reached.handle]
  | _ => rfl

/-- In an orderly world no storage is at the null address. -/
theorem World.Orderly.reserved {w : World} (orderly : w.Orderly) : 0 < w.memory.next :=
  Nat.lt_of_lt_of_le (by decide) orderly.books.storage

namespace Codec

open Program Descriptor

variable {calls : Calls} {w : World} {m : Memory} {t : Token} {e : Entry} {f : IntegerFormat}
  {v : Value} {slot : Slot} {block : ArgumentBlock} {wanted : Shape}

/-- Encode a value under a type and decode the slot again. -/
def roundTrip (v : Value) (t : Token) (block : ArgumentBlock) : Bridge Value := do
  let (slot, _) ← encode v t block
  decode slot t

/-- Decode a slot under a type and encode the value again. -/
def slotTrip (slot : Slot) (t : Token) (block : ArgumentBlock) : Bridge Slot := do
  let v ← decode slot t
  let (again, _) ← encode v t block
  return again

/-- The tag of a type in a database, if there is such an entry. -/
def tag? (db : Database) (t : Token) : Option Tag := (db.entry? t).map Entry.tag

/-- The integer format of a type: that of an integer type, or that of the storage of an enumeration
or a set of bit flags. -/
def integer? (db : Database) (t : Token) : Option IntegerFormat :=
  match db.entry? t with
  | some e =>
    if e.tag = .interface then
      match e.target?.bind db.entry? with
      | some target => if target.kind.isEnumeration then target.storage.integer? else none
      | none => none
    else e.tag.integer?
  | none => none

/-- The integer format of a shape in which integers travel. -/
def Shape.integer? : Shape → Option IntegerFormat
  | .scalar (.integer format) | .enumeration format => some format
  | _ => none

theorem native_of_integer (found : integer? w.database t = some f) : f.Native := by
  rw [integer?] at found
  split at found
  · split at found
    · split at found
      · split at found
        · exact Tag.native_of_integer found
        · cases found
      · cases found
    · exact Tag.native_of_integer found
  · cases found

theorem scalar_of_integer {tag : Tag} (found : tag.integer? = some f) :
    tag.scalar? = some (.integer f) := by
  rw [Tag.integer?] at found
  split at found
  · next format scalar =>
    cases found
    exact scalar
  · cases found

/-- A type with a numeric tag has that shape. -/
theorem gives_scalarShape {s : Scalar} (found : w.database.entry? t = some e)
    (scalar : e.tag.scalar? = some s) (same : w.memory = m) :
    Bridge.Gives calls (shape t) w (.ok (.scalar s)) m := by
  apply (Bridge.gives_lift (gives_entry found same)).bind
  intro w₁ reached
  split
  case h_9 =>
    rw [scalar]
    exact Bridge.gives_pure reached.memory
  all_goals
    next tagged =>
    rw [tagged] at scalar
    cases scalar

theorem gives_target {target : Token} (found : w.database.entry? t = some e)
    (refers : e.target? = some target) (same : w.memory = m) :
    Gives calls (target? t) w (some target) m := by
  apply (gives_entry found same).bind
  intro w₁ reached
  rw [refers]
  apply (gives_hold reached.memory).bind
  intro w₂ again
  exact gives_pure again.memory

theorem gives_shapeOfTarget {target : Token} (found : w.database.entry? target = some e)
    (listed : e.kind.isEnumeration = true) (stored : e.storage.integer? = some f)
    (same : w.memory = m) :
    Bridge.Gives calls (shapeOfTarget target) w (.ok (.enumeration f)) m := by
  apply (Bridge.gives_lift (gives_entry found same)).bind
  intro w₁ reached
  rw [if_pos listed, stored]
  exact Bridge.gives_pure reached.memory

/-- A type that refers to an enumeration travels in the format of its storage. -/
theorem gives_enumerationShape {target : Token} {u : Entry} (found : w.database.entry? t = some e)
    (tagged : e.tag = .interface) (refers : e.target? = some target)
    (there : w.database.entry? target = some u) (listed : u.kind.isEnumeration = true)
    (stored : u.storage.integer? = some f) (same : w.memory = m) :
    Bridge.Gives calls (shape t) w (.ok (.enumeration f)) m := by
  apply (Bridge.gives_lift (gives_entry found same)).bind
  intro w₁ reached
  rw [tagged]
  rw [← reached.database] at found there
  apply (Bridge.gives_lift (gives_target found refers reached.memory)).bind
  intro w₂ again
  rw [← again.database] at there
  exact gives_shapeOfTarget there listed stored again.memory

/-- A type with an integer format travels in that format. -/
theorem gives_integerShape (found : integer? w.database t = some f) (same : w.memory = m) :
    ∃ wanted : Shape, wanted.integer? = some f ∧ Bridge.Gives calls (shape t) w (.ok wanted) m := by
  rw [integer?] at found
  split at found
  · next e known =>
    split at found
    · next tagged =>
      split at found
      · next u target =>
        obtain ⟨target, refers, there⟩ := Option.bind_eq_some_iff.mp target
        split at found
        · next listed =>
          exact ⟨_, rfl, gives_enumerationShape known tagged refers there listed found same⟩
        · cases found
      · cases found
    · exact ⟨_, rfl, gives_scalarShape known (scalar_of_integer found) same⟩
  · cases found

theorem entry_of_tag {tag : Tag} (found : tag? w.database t = some tag) :
    ∃ e, w.database.entry? t = some e ∧ e.tag = tag :=
  Option.map_eq_some_iff.mp found

theorem gives_booleanShape (found : tag? w.database t = some .boolean) (same : w.memory = m) :
    Bridge.Gives calls (shape t) w (.ok .boolean) m := by
  obtain ⟨e, known, tagged⟩ := entry_of_tag found
  apply (Bridge.gives_lift (gives_entry known same)).bind
  intro w₁ reached
  rw [tagged]
  exact Bridge.gives_pure reached.memory

theorem gives_textShape {tag : Tag} (found : tag? w.database t = some tag)
    (string : tag.isString = true) (same : w.memory = m) :
    Bridge.Gives calls (shape t) w (.ok .text) m := by
  obtain ⟨e, known, tagged⟩ := entry_of_tag found
  apply (Bridge.gives_lift (gives_entry known same)).bind
  intro w₁ reached
  rw [tagged]
  cases tag
  case utf8 => exact Bridge.gives_pure reached.memory
  case filename => exact Bridge.gives_pure reached.memory
  all_goals cases string

/-- A value is encoded in the shape of its type. -/
theorem gives_encode {r : Except Failure (Slot × ArgumentBlock)}
    (shaped : Bridge.Gives calls (shape t) w (.ok wanted) w.memory)
    (coded : ∀ w₁, w.Reached w₁ w.memory → Bridge.Gives calls (encodeShape v wanted block) w₁ r m) :
    Bridge.Gives calls (encode v t block) w r m := by
  apply Bridge.Gives.region
  apply shaped.bind
  intro w₁ reached
  apply (Bridge.gives_lift (gives_trace reached.memory)).bind
  intro w₂ traced
  exact coded w₂ (reached.trans traced)

/-- A slot is decoded in the shape of its type. -/
theorem gives_decode {r : Except Failure Value}
    (shaped : Bridge.Gives calls (shape t) w (.ok wanted) w.memory)
    (coded : ∀ w₁, w.Reached w₁ w.memory → Bridge.Gives calls (decodeShape slot t wanted) w₁ r m) :
    Bridge.Gives calls (decode slot t) w r m := by
  apply Bridge.Gives.region
  apply shaped.bind
  intro w₁ reached
  apply (Bridge.gives_lift (gives_trace reached.memory)).bind
  intro w₂ traced
  exact coded w₂ (reached.trans traced)

theorem Shape.eq_of_integer (format : wanted.integer? = some f) :
    wanted = .scalar (.integer f) ∨ wanted = .enumeration f := by
  cases wanted with
  | scalar s =>
    cases s with
    | integer g =>
      cases format
      exact .inl rfl
    | _ => cases format
  | enumeration g =>
    cases format
    exact .inr rfl
  | _ => cases format

/-- An integer is encoded as its low bits. -/
theorem gives_encode_integer (found : integer? w.database t = some f) (i : Int64)
    (same : w.memory = m) :
    Bridge.Gives calls (encode (.int i) t block) w (.ok (.ofInteger f i.toInt, block)) m := by
  subst same
  obtain ⟨wanted, format, shaped⟩ := gives_integerShape found rfl
  apply gives_encode shaped
  intro w₁ reached
  have coded : Bridge.Gives calls (liftM (encodeScalar (.integer f) (.int i)) : Bridge Slot) w₁
      (.ok (.ofInteger f i.toInt)) w.memory := Bridge.gives_except reached.memory
  rcases Shape.eq_of_integer format with rfl | rfl
  · exact coded.bind fun _ again => Bridge.gives_pure again.memory
  · exact coded.bind fun _ again => Bridge.gives_pure again.memory

/-- A slot is decoded as the integer that its low bits mean. -/
theorem gives_decode_integer (found : integer? w.database t = some f) (slot : Slot)
    (same : w.memory = m) :
    Bridge.Gives calls (decode slot t) w (.ok (.int (f.given slot.word))) m := by
  subst same
  obtain ⟨wanted, format, shaped⟩ := gives_integerShape found rfl
  apply gives_decode shaped
  intro w₁ reached
  rcases Shape.eq_of_integer format with rfl | rfl
  · exact Bridge.gives_pure reached.memory
  · exact Bridge.gives_pure reached.memory

theorem gives_roundTrip_integer (found : integer? w.database t = some f) (i : Int64) :
    Bridge.Gives calls (roundTrip (.int i) t block) w
      (.ok (.int (f.given (f.wrap i.toInt)))) w.memory := by
  apply (gives_encode_integer found i rfl).bind
  intro w₁ reached
  rw [← reached.database] at found
  exact gives_decode_integer found (.ofInteger f i.toInt) reached.memory

/-- A slot that is decoded as an integer and encoded again keeps its low bits. -/
theorem gives_slotTrip_integer (found : integer? w.database t = some f) (slot : Slot) :
    Bridge.Gives calls (slotTrip slot t block) w (.ok ⟨slot.word % f.count⟩) w.memory := by
  apply (gives_decode_integer found slot rfl).bind
  intro w₁ reached
  rw [← reached.database] at found
  apply (gives_encode_integer found (f.given slot.word) reached.memory).bind
  intro w₂ again
  rw [← IntegerFormat.wrap_given (native_of_integer found)]
  exact Bridge.gives_pure again.memory

/-- A truth value comes back as one or zero. -/
theorem gives_roundTrip_boolean (found : tag? w.database t = some .boolean) (v : Value) :
    Bridge.Gives calls (roundTrip v t block) w
      (.ok (.int (if truthy w.store v then 1 else 0))) w.memory := by
  have encoded : Bridge.Gives calls (encode v t block) w
      (.ok (.ofBool (truthy w.store v), block)) w.memory := by
    apply gives_encode (gives_booleanShape found rfl)
    intro w₁ reached
    apply (Bridge.gives_lift (gives_store reached.memory)).bind
    intro w₂ again
    rw [reached.truthy]
    exact Bridge.gives_pure again.memory
  apply encoded.bind
  intro w₁ reached
  rw [← reached.database] at found
  apply gives_decode (m := w.memory) (gives_booleanShape found rfl)
  intro w₂ again
  have read : (Slot.ofBool (truthy w.store v)).toBool = truthy w.store v := by
    cases truthy w.store v <;> rfl
  have given : Bridge.Gives (ε := Failure) calls
      (pure (Value.int (if (Slot.ofBool (truthy w.store v)).toBool then 1 else 0))) w₂
      (.ok (.int (if truthy w.store v then 1 else 0))) w.memory := by
    rw [read]
    exact Bridge.gives_pure (again.memory.trans reached.memory)
  exact given

/-- The absent value comes back from a null address. -/
theorem gives_roundTrip_nil {tag : Tag} (found : tag? w.database t = some tag)
    (string : tag.isString = true) :
    Bridge.Gives calls (roundTrip .nil t block) w (.ok .nil) w.memory := by
  have encoded : Bridge.Gives calls (encode .nil t block) w (.ok (.zero, block)) w.memory := by
    apply gives_encode (gives_textShape found string rfl)
    intro w₁ reached
    exact Bridge.gives_pure reached.memory
  apply encoded.bind
  intro w₁ reached
  rw [← reached.database] at found
  apply gives_decode (m := w.memory) (gives_textShape found string rfl)
  intro w₂ again
  apply (Bridge.gives_lift (gives_memory (again.memory.trans reached.memory))).bind
  intro w₃ last
  exact Bridge.gives_pure last.memory

/-- The memory after a native string was placed. -/
def afterText (m : Memory) (text : String) : Memory :=
  (m.place (Cell.ofBytes (Text.encode text ++ [0]))
    (Cell.ofBytes (Text.encode text ++ [0])).length).2

theorem stringBytes_plain {text : String} (plain : '\x00' ∉ text.toList) :
    stringBytes text = .ok (Text.encode text ++ [0]) := by
  rw [stringBytes, if_neg]
  rwa [List.contains_iff_mem]

theorem stringBytes_zero {text : String} (zero : '\x00' ∈ text.toList) :
    stringBytes text = .error (.mismatch "string without NUL bytes" "string with NUL byte") := by
  rw [stringBytes, if_pos]
  rwa [List.contains_iff_mem]

/-- A text without a zero character is placed in memory of its own. -/
theorem gives_encode_text {tag : Tag} (found : tag? w.database t = some tag)
    (string : tag.isString = true) {text : String} (plain : '\x00' ∉ text.toList) :
    Bridge.Gives calls (encode (.str text) t block) w
      (.ok (.ofAddress w.memory.next,
        ⟨[(w.memory.next, (Text.encode text ++ [0]).length)]⟩ :: block))
      (afterText w.memory text) := by
  apply gives_encode (gives_textShape found string rfl)
  intro w₁ reached
  have bytes : Bridge.Gives calls (liftM (stringBytes text) : Bridge (List UInt8)) w₁
      (.ok (Text.encode text ++ [0])) w.memory := by
    rw [stringBytes_plain plain]
    exact Bridge.gives_except reached.memory
  apply bytes.bind
  intro w₂ again
  apply (Bridge.gives_lift (gives_place again.memory)).bind
  intro w₃ placed
  exact Bridge.gives_pure placed.memory

/-- A text without a zero character comes back. -/
theorem gives_roundTrip_text (reserved : 0 < w.memory.next) {tag : Tag}
    (found : tag? w.database t = some tag) (string : tag.isString = true) {text : String}
    (plain : '\x00' ∉ text.toList) :
    Bridge.Gives calls (roundTrip (.str text) t block) w (.ok (.str text))
      (afterText w.memory text) := by
  apply (gives_encode_text found string plain).bind
  intro w₁ reached
  rw [← reached.database] at found
  apply gives_decode (m := afterText w.memory text) (gives_textShape found string rfl)
  intro w₂ again
  have memory := again.memory.trans reached.memory
  apply (Bridge.gives_lift (gives_memory memory)).bind
  intro w₃ last
  have back : decodeText (afterText w.memory text) w.memory.next = .str text := by
    rw [decodeText, if_neg (Nat.ne_of_gt reserved)]
    exact congrArg Value.str (w.memory.text_place plain _)
  have given : Bridge.Gives (ε := Failure) calls
      (pure (decodeText (afterText w.memory text) w.memory.next)) w₃ (.ok (.str text))
      (afterText w.memory text) := by
    rw [back]
    exact Bridge.gives_pure last.memory
  exact given

/-- A text with a zero character is refused, and nothing is placed for it. -/
theorem gives_encode_zero {tag : Tag} (found : tag? w.database t = some tag)
    (string : tag.isString = true) {text : String} (zero : '\x00' ∈ text.toList) :
    Bridge.Gives calls (encode (.str text) t block) w
      (.error (.mismatch "string without NUL bytes" "string with NUL byte")) w.memory := by
  apply gives_encode (gives_textShape found string rfl)
  intro w₁ reached
  apply Bridge.Gives.bind_error
  rw [stringBytes_zero zero]
  exact Bridge.gives_except reached.memory

/-- A value comes back through its encoding.  Under a type with an integer format, an integer comes
back as the only one in range with the same low bits, which is the integer itself exactly if it is
in range, and which comes back as itself; a slot keeps its low bits.  Under the type of truth
values, every value comes back as one or zero.  Under a string type, the absent value and every text
without a zero character come back, and any other text is refused and nothing is placed for it. -/
theorem round_trip (calls : Calls) (w : World) (reserved : 0 < w.memory.next) (t : Token)
    (block : ArgumentBlock) :
    (∀ f, integer? w.database t = some f →
      (∀ i, ∃ j, Bridge.Gives calls (roundTrip (.int i) t block) w (.ok (.int j)) w.memory
        ∧ (∀ k, (f.Fits k ∧ f.meaning k ≡ i.toInt [ZMOD 2 ^ f.width]) ↔ k = j)
        ∧ (j = i ↔ f.Fits i)
        ∧ Bridge.Gives calls (roundTrip (.int j) t block) w (.ok (.int j)) w.memory)
      ∧ ∀ slot, Bridge.Gives calls (slotTrip slot t block) w (.ok ⟨slot.word % 2 ^ f.width⟩)
        w.memory)
    ∧ (tag? w.database t = some .boolean → ∀ v,
      Bridge.Gives calls (roundTrip v t block) w
        (.ok (.int (if truthy w.store v then 1 else 0))) w.memory)
    ∧ ∀ tag, tag? w.database t = some tag → tag.isString = true →
      Bridge.Gives calls (roundTrip .nil t block) w (.ok .nil) w.memory
      ∧ (∀ text, '\x00' ∉ text.toList →
        Bridge.Gives calls (roundTrip (.str text) t block) w (.ok (.str text))
          (afterText w.memory text))
      ∧ ∀ text, '\x00' ∈ text.toList →
        Bridge.Gives calls (encode (.str text) t block) w
          (.error (.mismatch "string without NUL bytes" "string with NUL byte")) w.memory := by
  refine ⟨fun f found => ?_, gives_roundTrip_boolean, fun tag found string => ?_⟩
  · have native := native_of_integer found
    have modulus : ((2 ^ f.width : Int)) = f.count := by
      rw [IntegerFormat.count_eq, Nat.cast_pow, Nat.cast_ofNat]
    constructor
    · intro i
      refine ⟨_, gives_roundTrip_integer found i, ?_, IntegerFormat.given_wrap_eq_iff native, ?_⟩
      · intro k
        rw [modulus]
        exact IntegerFormat.given_unique native
      · have again : Bridge.Gives calls (roundTrip (.int (f.given (f.wrap i.toInt))) t block) w _
            w.memory := gives_roundTrip_integer found _
        rwa [(IntegerFormat.given_wrap_eq_iff native).mpr (IntegerFormat.given_fits native _)]
          at again
    · exact gives_slotTrip_integer found
  · refine ⟨gives_roundTrip_nil found string, ?_, ?_⟩
    · exact fun text plain => gives_roundTrip_text reserved found string plain
    · exact fun text zero => gives_encode_zero found string zero

/-- An enumeration whose values are stored in a byte, the type of its values, and the types of 16-bit
integers, truth values and strings. -/
def sampleTypes : List Script.Step :=
  [.declareNamespace "Demo" "1.0",
    .declare (.enum "Demo" "Mode" .uint8 []) (some "Mode"),
    .declare (.type (.reference "Mode")) none, .declare (.type (.plain .int16)) none,
    .declare (.type (.plain .boolean)) none, .declare (.type (.plain .utf8)) none]

/-- The world after the types were declared. -/
def sampleWorld : World := (Session.advanceAll 1 sampleTypes (Session.start {})).2

theorem round_trip_sample :
    Bridge.Gives (Session.calls 0) (roundTrip (.int 300) 2 []) sampleWorld (.ok (.int 44))
        sampleWorld.memory
      ∧ Bridge.Gives (Session.calls 0) (slotTrip ⟨65535⟩ 3 []) sampleWorld (.ok ⟨65535⟩)
        sampleWorld.memory
      ∧ Bridge.Gives (Session.calls 0) (roundTrip (.str "off") 4 []) sampleWorld (.ok (.int 1))
        sampleWorld.memory
      ∧ Bridge.Gives (Session.calls 0) (roundTrip (.str "é") 5 []) sampleWorld (.ok (.str "é"))
        (afterText sampleWorld.memory "é")
      ∧ Bridge.Gives (Session.calls 0) (encode (.str "a\x00") 5 []) sampleWorld
        (.error (.mismatch "string without NUL bytes" "string with NUL byte"))
        sampleWorld.memory := by
  have reserved : 0 < sampleWorld.memory.next :=
    (Session.boundaries_orderly 1 sampleTypes (Session.start_orderly {}) _
      (Session.last_mem_boundaries 1 sampleTypes (Session.start {}))).reserved
  obtain ⟨bytes, _⟩ := (round_trip (Session.calls 0) sampleWorld reserved 2 []).1 ⟨8, false⟩
    (by decide +kernel)
  obtain ⟨j, given, unique, _⟩ := bytes 300
  have wrapped : 44 = j := (unique 44).mp (by decide)
  obtain ⟨_, slots⟩ := (round_trip (Session.calls 0) sampleWorld reserved 3 []).1 ⟨16, true⟩
    (by decide +kernel)
  have truths := (round_trip (Session.calls 0) sampleWorld reserved 4 []).2.1 (by decide +kernel)
  obtain ⟨_, plain, zero⟩ := (round_trip (Session.calls 0) sampleWorld reserved 5 []).2.2 .utf8
    (by decide +kernel) rfl
  exact ⟨wrapped ▸ given, slots ⟨65535⟩, truths (.str "off"), plain "é" (by decide),
    zero "a\x00" (by decide)⟩

end Codec
end ObjectBridge
