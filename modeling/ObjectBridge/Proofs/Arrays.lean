import ObjectBridge.Proofs.Vectors

/-!
# Arrays come back

An array that is encoded under an array type and decoded again comes back as far as the type says
how long it is.  A vector of strings ends with the null address, and a fixed size cuts it off;
numbers are read only under a fixed size, each in the range of the type.  Where no length is known
the address of the native array is given.
-/

namespace ObjectBridge

/-- The integers of a host array, none for an array of real numbers or of texts. -/
def Elements.integers? : Elements → Option (List Int)
  | .char items => some (items.map fun x => x.toNat)
  | .short items => some (items.map Int16.toInt)
  | .int items => some (items.map Int32.toInt)
  | .long items => some (items.map Int64.toInt)
  | .float _ | .double _ | .string _ => none

namespace Program

theorem gives_placeCells {calls : Calls} {w : World} {m : Memory} {cells : List Cell}
    (same : w.memory = m) :
    Gives calls (placeCells cells) w m.next (m.place cells cells.length).2 := by
  subst same
  refine gives_request rfl ⟨⟨[], World.reading_of_store_eq rfl ?_⟩, rfl, rfl⟩
  exact Nat.le_of_lt (w.place_lt _ _).2

end Program

namespace Codec

open Program Descriptor

variable {calls : Calls} {w : World} {m : Memory} {t element : Token} {tag : Tag} {zero : Bool}
  {size : Option Nat} {f : IntegerFormat} {a : Address} {elements : Elements} {v : Value}
  {texts : List String} {integers : List Int} {block : ArgumentBlock}

/-- What a text is stored as: its bytes and a zero byte. -/
def terminated (text : String) : List UInt8 := Text.encode text ++ [0]

theorem gives_mapM {α β : Type} (calls : Calls) (f : α → Except Failure β) (items : List α)
    (same : w.memory = m) :
    Bridge.Gives calls (items.mapM fun x => (liftM (f x) : Bridge β)) w (items.mapM f) m := by
  unfold List.mapM
  generalize ([] : List β) = done
  induction items generalizing w done with
  | nil => exact Bridge.gives_pure same
  | cons x rest ih =>
    rw [List.mapM.loop, List.mapM.loop]
    have first : Bridge.Gives calls (liftM (f x) : Bridge β) w (f x) m := Bridge.gives_except same
    cases given : f x with
    | ok y =>
      rw [given] at first
      exact first.bind fun w₁ reached => ih reached.memory (y :: done)
    | error e =>
      rw [given] at first
      exact first.bind_error

theorem mapM_stringBytes_plain (plain : ∀ text ∈ texts, '\x00' ∉ text.toList) :
    texts.mapM stringBytes = .ok (texts.map terminated) := by
  induction texts with
  | nil => rfl
  | cons text rest ih =>
    rw [List.forall_mem_cons] at plain
    rw [List.mapM_cons, stringBytes_plain plain.1, ih plain.2]
    rfl

theorem mapM_stringBytes_zero {text : String} (member : text ∈ texts)
    (zero : '\x00' ∈ text.toList) :
    texts.mapM stringBytes
      = .error (.mismatch "string without NUL bytes" "string with NUL byte") := by
  induction texts with
  | nil => cases member
  | cons first rest ih =>
    rw [List.mapM_cons]
    by_cases plain : '\x00' ∈ first.toList
    · rw [stringBytes_zero plain]
      rfl
    · have later : text ∈ rest := by
        rcases List.mem_cons.mp member with rfl | later
        · exact absurd zero plain
        · exact later
      rw [stringBytes_plain plain, ih later]
      rfl

/-- Strings that are stored one after the other are all held in the end. -/
theorem gives_placeAll (calls : Calls) (plain : ∀ text ∈ texts, '\x00' ∉ text.toList) {m : Memory}
    (reserved : 0 < m.next) :
    ∃ pieces m', (∀ w, w.memory = m → Gives calls (placeAll (texts.map terminated)) w pieces m')
      ∧ m.Extends m'
      ∧ List.Forall₂ (fun piece text => 0 < piece.1 ∧ m'.Holds piece.1 (Text.encode text))
          pieces texts := by
  induction texts generalizing m with
  | nil => exact ⟨[], m, fun w same => gives_pure same, .refl m, .nil⟩
  | cons text rest ih =>
    rw [List.forall_mem_cons] at plain
    let cells := Cell.ofBytes (terminated text)
    let m₁ := (m.place cells cells.length).2
    have placed : m.Extends m₁ := m.extends_place cells _
    have holds : m₁.Holds m.next (Text.encode text) :=
      m.holds_place (Text.zero_not_mem_encode plain.1) _
    obtain ⟨pieces, m', others, grown, held⟩ :=
      ih plain.2 (Nat.lt_of_lt_of_le reserved placed.next)
    refine ⟨(m.next, (terminated text).length) :: pieces, m', fun w same => ?_,
      placed.trans grown, .cons ⟨reserved, holds.mono grown⟩ held⟩
    apply (gives_place same).bind
    intro w₁ reached
    apply (others w₁ reached.memory).bind
    intro w₂ again
    exact gives_pure again.memory

/-- A vector of strings is held, and it is read as its texts. -/
theorem gives_holdTexts (calls : Calls) (plain : ∀ text ∈ texts, '\x00' ∉ text.toList) {m : Memory}
    (reserved : 0 < m.next) (block : ArgumentBlock) :
    ∃ a holding m', (∀ w, w.memory = m → Bridge.Gives calls (holdTexts texts block) w
        (.ok (.ofAddress a, holding :: block)) m')
      ∧ 0 < a ∧ texts.length ≤ m'.extent ∧ ∀ limit, m'.texts a limit = texts.take limit := by
  obtain ⟨pieces, m₁, stored, grown, held⟩ := gives_placeAll calls plain reserved
  let vector := pieces.flatMap (fun piece => Cell.ofAddress piece.1) ++ Cell.ofAddress 0
  have placed := m₁.extends_place vector vector.length
  have positive : 0 < m₁.next := Nat.lt_of_lt_of_le reserved grown.next
  refine ⟨m₁.next, ⟨(m₁.next, vector.length) :: pieces⟩, (m₁.place vector vector.length).2,
    fun w same => ?_, positive, ?_, ?_⟩
  · have strings := gives_mapM calls stringBytes texts same
    rw [mapM_stringBytes_plain plain] at strings
    apply strings.bind
    intro w₁ reached
    apply (Bridge.gives_lift (stored w₁ reached.memory)).bind
    intro w₂ again
    apply (Bridge.gives_lift (gives_placeCells again.memory)).bind
    intro w₃ last
    exact Bridge.gives_pure last.memory
  · have pointers : pieces.length ≤ vector.length := by
      rw [List.length_append, List.length_flatMap]
      simp only [Cell.length_ofAddress, List.map_const', List.sum_replicate_nat]
      omega
    exact held.length_eq ▸ Nat.le_trans pointers (m₁.length_le_extent vector _)
  · have lies : (m₁.place vector vector.length).2.Vector m₁.next (pieces.map Prod.fst) := by
      apply Memory.vector_of_lies
      rw [List.flatMap_map]
      exact m₁.lies_place vector _
    exact Memory.texts_of_vector lies
      (held.imp fun _ _ found => ⟨found.1, found.2.mono placed⟩)

theorem encodeElements_texts (string : tag.isString = true) :
    encodeElements (.string texts) tag block = holdTexts texts block :=
  if_pos string

/-- An array of texts is encoded as a vector of strings, which the block owns. -/
theorem gives_encode_texts (calls : Calls) (reserved : 0 < w.memory.next)
    (shaped : w.database.shape? t = some (.array element zero size))
    (tagged : tag? w.database element = some tag) (string : tag.isString = true)
    (plain : ∀ text ∈ texts, '\x00' ∉ text.toList) (block : ArgumentBlock) :
    ∃ a holding m, Bridge.Gives calls (encode (.array (.string texts)) t block) w
        (.ok (.ofAddress a, holding :: block)) m
      ∧ 0 < a ∧ texts.length ≤ m.extent ∧ ∀ limit, m.texts a limit = texts.take limit := by
  obtain ⟨e, known, rfl⟩ := entry_of_tag tagged
  obtain ⟨a, holding, m, given, read⟩ := gives_holdTexts calls plain reserved block
  refine ⟨a, holding, m, gives_encode (gives_arrayShape shaped rfl) fun w₁ reached => ?_, read⟩
  rw [← reached.database] at known
  apply (Bridge.gives_lift (gives_entry known reached.memory)).bind
  intro w₂ again
  change Bridge.Gives calls (encodeElements (.string texts) e.tag block) w₂ _ m
  rw [encodeElements_texts string]
  exact given w₂ again.memory

/-- A text with a zero character among the elements is refused, and nothing is placed. -/
theorem gives_encode_zero_text {text : String}
    (shaped : w.database.shape? t = some (.array element zero size))
    (tagged : tag? w.database element = some tag) (string : tag.isString = true)
    (member : text ∈ texts) (null : '\x00' ∈ text.toList) :
    Bridge.Gives calls (encode (.array (.string texts)) t block) w
      (.error (.mismatch "string without NUL bytes" "string with NUL byte")) w.memory := by
  obtain ⟨e, known, rfl⟩ := entry_of_tag tagged
  apply gives_encode (gives_arrayShape shaped rfl)
  intro w₁ reached
  rw [← reached.database] at known
  apply (Bridge.gives_lift (gives_entry known reached.memory)).bind
  intro w₂ again
  change Bridge.Gives calls (encodeElements (.string texts) e.tag block) w₂ _ w.memory
  rw [encodeElements_texts string]
  have strings := gives_mapM calls stringBytes texts again.memory
  rw [mapM_stringBytes_zero member null] at strings
  exact strings.bind_error

/-- An address is decoded under an array type by what lies there. -/
theorem gives_decode_array (shaped : w.database.shape? t = some (.array element zero size))
    (tagged : tag? w.database element = some tag) (a : Address) (same : w.memory = m) :
    Bridge.Gives calls (decode (.ofAddress a) t) w (.ok (decodeArray m a tag zero size)) m := by
  subst same
  obtain ⟨e, known, rfl⟩ := entry_of_tag tagged
  apply gives_decode (gives_arrayShape shaped rfl)
  intro w₁ reached
  rw [← reached.database] at known
  apply Bridge.gives_lift
  apply (gives_memory reached.memory).bind
  intro w₂ again
  rw [← again.database] at known
  apply (gives_entry known again.memory).bind
  intro w₃ last
  exact gives_pure last.memory

/-- What is encoded as an address under an array type is decoded by what then lies there. -/
theorem gives_roundTrip_array (shaped : w.database.shape? t = some (.array element zero size))
    (tagged : tag? w.database element = some tag) {held : ArgumentBlock}
    (encoded : Bridge.Gives calls (encode v t block) w (.ok (.ofAddress a, held)) m) :
    Bridge.Gives calls (roundTrip v t block) w (.ok (decodeArray m a tag zero size)) m := by
  apply encoded.bind
  intro w₁ reached
  rw [← reached.database] at shaped tagged
  exact gives_decode_array shaped tagged a reached.memory

/-- What a type makes of a vector of texts: as many as its fixed size says, or else all of them if
the null address ends them, or else the address. -/
def vectorValue (zero : Bool) (size : Option Nat) (texts : List String) (a : Address) : Value :=
  match size, zero with
  | some n, _ => .array (.string (texts.take n))
  | none, true => .array (.string texts)
  | none, false => .pointer a

theorem decodeArray_texts (zero : Bool) (size : Option Nat) (string : tag.isString = true)
    (positive : 0 < a)
    (room : texts.length ≤ m.extent) (read : ∀ limit, m.texts a limit = texts.take limit) :
    decodeArray m a tag zero size = vectorValue zero size texts a := by
  have there : a ≠ 0 := Nat.ne_of_gt positive
  cases size with
  | some n => simp only [decodeArray, there, if_false, string, if_true, read, vectorValue]
  | none =>
    cases zero with
    | true =>
      simp only [decodeArray, there, if_false, string, Bool.and_self, if_true, read,
        List.take_of_length_le room, vectorValue]
    | false =>
      simp only [decodeArray, there, if_false, Bool.and_false, Bool.false_eq_true, vectorValue]

theorem numbers_of_integers (listed : elements.integers? = some integers) :
    numbers? elements = some (integers.map .integer) := by
  cases elements with
  | char | short | int | long =>
    cases listed
    rw [numbers?, List.map_map]
    rfl
  | _ => cases listed

/-- The elements that are read from an encoded array, each in the range of its type. -/
theorem readElements_integers (integral : tag.integer? = some f)
    (read : m.read a (elementBytes (.integer f) (integers.map .integer)).length
      = elementBytes (.integer f) (integers.map .integer))
    {n : Nat} (within : n ≤ integers.length) :
    readElements m (.integer f) a n
      = .long ((integers.take n).map fun i => f.given (f.wrap i)) := by
  have words : elementWords m (.integer f) a n = (integers.take n).map f.wrap := by
    apply List.ext_getElem
    · rw [elementWords, List.length_map, List.length_range, List.length_map, List.length_take,
        Nat.min_eq_left within]
    · intro k early _
      rw [elementWords, List.length_map, List.length_range] at early
      have inside : k < integers.length := Nat.lt_of_lt_of_le early within
      have here : (integers.map Number.integer)[k]? = some (.integer integers[k]) := by
        rw [List.getElem?_map, List.getElem?_eq_getElem inside, Option.map_some]
      have stored := readWord_elements read here
      rw [elementWord, ← IntegerFormat.count_bytes integral,
        Nat.mod_eq_of_lt (IntegerFormat.wrap_lt f integers[k])] at stored
      simpa only [elementWords, List.getElem_map, List.getElem_range, List.getElem_take]
        using stored
  have host : readElements m (.integer f) a n
      = .long ((elementWords m (.integer f) a n).map f.given) := rfl
  rw [host, words, List.map_map]
  rfl

/-- The integers that are decoded from an encoded array. -/
theorem decodeArray_integers (zero : Bool) (integral : tag.integer? = some f) (positive : 0 < a)
    (read : m.read a (elementBytes (.integer f) (integers.map .integer)).length
      = elementBytes (.integer f) (integers.map .integer)) :
    decodeArray m a tag zero none = .pointer a
      ∧ ∀ n ≤ integers.length, decodeArray m a tag zero (some n)
        = .array (.long ((integers.take n).map fun i => f.given (f.wrap i))) := by
  have other := isString_of_integer integral
  refine ⟨?_, fun n within => ?_⟩
  · rw [decodeArray, if_neg (Nat.ne_of_gt positive), other, Bool.false_and]
    exact if_neg Bool.false_ne_true
  · rw [decodeArray, if_neg (Nat.ne_of_gt positive), other, scalar_of_integer integral]
    exact congrArg Value.array (readElements_integers integral read within)

/-- The absent value is encoded as the null address. -/
theorem gives_encode_absent (shaped : w.database.shape? t = some (.array element zero size))
    (tagged : tag? w.database element = some tag) :
    Bridge.Gives calls (encode .nil t block) w (.ok (.zero, block)) w.memory := by
  obtain ⟨e, known, rfl⟩ := entry_of_tag tagged
  apply gives_encode (gives_arrayShape shaped rfl)
  intro w₁ reached
  rw [← reached.database] at known
  exact (Bridge.gives_lift (gives_entry known reached.memory)).bind fun _ again =>
    Bridge.gives_pure again.memory

/-- Under an array type a text is encoded as the array of this text. -/
theorem run_encode_single (calls : Calls)
    (shaped : w.database.shape? t = some (.array element zero size)) (text : String)
    (block : ArgumentBlock) :
    (encode (.str text) t block).run.run calls w
      = (encode (.array (.string [text])) t block).run.run calls w := by
  have given : Bridge.Gives calls (shape t) w _ w.memory := gives_arrayShape shaped rfl
  obtain ⟨w₁, ran, _⟩ := given
  have goes (x : Value) : (encode x t block).run.run calls w
      = Program.close w.store.held.length (Bridge.keepOk keepNothing)
        ((do
          Program.trace [t]
          encodeShape x (.array element zero size) block : Bridge (Slot × ArgumentBlock)).run.run
            calls w₁) := by
    rw [encode, Bridge.region_eq, run_region]
    have shapes : Program.run calls (shape t) w = _ := ran
    refine congrArg _ ((run_bind _ _ _ _).trans ?_)
    rw [shapes]
    rfl
  rw [goes, goes]
  rfl

/-- An array comes back through its encoding as far as its type says how long it is.  Under an array
type with string elements, texts without a zero character become a vector that the block owns.  All
of them come back where the type is ended by the null address, the first ones where it has a fixed
size, and the address of the vector where it has neither; one text with a zero character has the
array refused, and nothing is placed.  Under an array type with integer elements, a host array of
integers comes back as its address, or where the type has a fixed size that the array reaches as so
many of its elements, each of them the only integer in range with the same low bits.  The absent
value travels as the null address, and a text is encoded as the array of this text. -/
theorem array_round_trip (calls : Calls) (w : World) (reserved : 0 < w.memory.next)
    (t element : Token) (zero : Bool) (size : Option Nat) (tag : Tag) (block : ArgumentBlock)
    (shaped : w.database.shape? t = some (.array element zero size))
    (tagged : tag? w.database element = some tag) :
    (tag.isString = true → ∀ texts : List String,
      ((∀ text ∈ texts, '\x00' ∉ text.toList) → ∃ a holding m,
        Bridge.Gives calls (encode (.array (.string texts)) t block) w
          (.ok (.ofAddress a, holding :: block)) m
        ∧ Bridge.Gives calls (roundTrip (.array (.string texts)) t block) w
          (.ok (vectorValue zero size texts a)) m)
      ∧ ((∃ text ∈ texts, '\x00' ∈ text.toList) →
        Bridge.Gives calls (encode (.array (.string texts)) t block) w
          (.error (.mismatch "string without NUL bytes" "string with NUL byte")) w.memory))
    ∧ (∀ f, tag.integer? = some f → ∀ elements integers, elements.integers? = some integers →
      ∃ a held m,
        Bridge.Gives calls (encode (.array elements) t block) w (.ok (.ofAddress a, held)) m
        ∧ (size = none →
          Bridge.Gives calls (roundTrip (.array elements) t block) w (.ok (.pointer a)) m)
        ∧ ∀ n, size = some n → n ≤ integers.length → ∃ kept : List Int64,
          Bridge.Gives calls (roundTrip (.array elements) t block) w (.ok (.array (.long kept))) m
          ∧ List.Forall₂
            (fun i j => ∀ k, (f.Fits k ∧ f.meaning k ≡ i [ZMOD 2 ^ f.width]) ↔ k = j)
            (integers.take n) kept)
    ∧ (Bridge.Gives calls (encode .nil t block) w (.ok (.zero, block)) w.memory
      ∧ Bridge.Gives calls (roundTrip .nil t block) w (.ok .nil) w.memory)
    ∧ ∀ text, (encode (.str text) t block).run.run calls w
      = (encode (.array (.string [text])) t block).run.run calls w := by
  refine ⟨fun string texts => ⟨fun plain => ?_, fun ⟨text, member, null⟩ => ?_⟩,
    fun f integral elements integers listed => ?_, ⟨?_, ?_⟩, ?_⟩
  · obtain ⟨a, holding, m, encoded, positive, room, read⟩ :=
      gives_encode_texts calls reserved shaped tagged string plain block
    refine ⟨a, holding, m, encoded, ?_⟩
    rw [← decodeArray_texts zero size string positive room read]
    exact gives_roundTrip_array shaped tagged encoded
  · exact gives_encode_zero_text shaped tagged string member null
  · obtain ⟨a, m, encoded, read, positive⟩ :=
      gives_placed_array calls shaped tagged integral (numbers_of_integers listed) block
    have back : Bridge.Gives calls (roundTrip (.array elements) t block) w _ m :=
      gives_roundTrip_array shaped tagged encoded
    obtain ⟨bare, fixed⟩ := decodeArray_integers zero integral (positive reserved) read
    refine ⟨a, _, m, encoded, fun unknown => ?_, fun n known within =>
      ⟨(integers.take n).map fun i => f.given (f.wrap i), ?_, ?_⟩⟩
    · rwa [unknown, bare] at back
    · rwa [known, fixed n within] at back
    · rw [List.forall₂_map_right_iff, List.forall₂_same]
      intro i _ k
      have modulus : (2 ^ f.width : Int) = f.count := by
        rw [IntegerFormat.count_eq, Nat.cast_pow, Nat.cast_ofNat]
      rw [modulus]
      exact IntegerFormat.given_unique (Tag.native_of_integer integral)
  · exact gives_encode_absent shaped tagged
  · exact gives_roundTrip_array shaped tagged (gives_encode_absent shaped tagged)
  · exact fun text => run_encode_single calls shaped text block

/-- Arrays of strings that are ended by the null address, of two strings and of strings of unknown
number, and arrays of two signed bytes. -/
def sampleVectorTypes : List Script.Step :=
  [.declare (.type (.array (.plain .utf8) .plain true none none)) none,
    .declare (.type (.array (.plain .utf8) .plain true (some 2) none)) none,
    .declare (.type (.array (.plain .filename) .plain false none none)) none,
    .declare (.type (.array (.plain .int8) .plain false (some 2) none)) none]

/-- The world after the array types were declared. -/
def sampleVectorWorld : World := (Session.advanceAll 1 sampleVectorTypes (Session.start {})).2

theorem array_round_trip_sample :
    (∃ m, Bridge.Gives (Session.calls 0) (roundTrip (.array (.string ["é", "", "z"])) 2 [])
        sampleVectorWorld (.ok (.array (.string ["é", "", "z"]))) m)
      ∧ (∃ m, Bridge.Gives (Session.calls 0) (roundTrip (.array (.string ["é", "", "z"])) 4 [])
        sampleVectorWorld (.ok (.array (.string ["é", ""]))) m)
      ∧ Bridge.Gives (Session.calls 0) (encode (.array (.string ["a", "b\x00"])) 6 [])
        sampleVectorWorld (.error (.mismatch "string without NUL bytes" "string with NUL byte"))
        sampleVectorWorld.memory
      ∧ ∃ m, Bridge.Gives (Session.calls 0) (roundTrip (.array (.short [300, -1, 7])) 8 [])
        sampleVectorWorld (.ok (.array (.long [44, -1]))) m := by
  have reserved : 0 < sampleVectorWorld.memory.next :=
    (Session.boundaries_orderly 1 sampleVectorTypes (Session.start_orderly {}) _
      (Session.last_mem_boundaries 1 sampleVectorTypes (Session.start {}))).reserved
  obtain ⟨ended, _⟩ := array_round_trip (Session.calls 0) sampleVectorWorld reserved 2 1 true none
    .utf8 [] (by decide +kernel) (by decide +kernel)
  obtain ⟨fixed, _⟩ := array_round_trip (Session.calls 0) sampleVectorWorld reserved 4 3 true
    (some 2) .utf8 [] (by decide +kernel) (by decide +kernel)
  obtain ⟨bare, _⟩ := array_round_trip (Session.calls 0) sampleVectorWorld reserved 6 5 false none
    .filename [] (by decide +kernel) (by decide +kernel)
  obtain ⟨_, bytes, _⟩ := array_round_trip (Session.calls 0) sampleVectorWorld reserved 8 7 false
    (some 2) .int8 [] (by decide +kernel) (by decide +kernel)
  obtain ⟨_, _, m₁, _, all⟩ := (ended rfl ["é", "", "z"]).1 (by decide)
  obtain ⟨_, _, m₂, _, two⟩ := (fixed rfl ["é", "", "z"]).1 (by decide)
  obtain ⟨_, _, m₃, _, _, sized⟩ := bytes ⟨8, true⟩ rfl (.short [300, -1, 7]) [300, -1, 7] rfl
  obtain ⟨kept, back, same⟩ := sized 2 rfl (by decide)
  have low : kept = [44, -1] := by
    obtain ⟨j, rest, first, later, rfl⟩ := List.forall₂_cons_left_iff.mp same
    obtain ⟨k, last, second, nothing, rfl⟩ := List.forall₂_cons_left_iff.mp later
    cases nothing
    rw [← (first 44).mp (by decide), ← (second (-1)).mp (by decide)]
  exact ⟨⟨m₁, all⟩, ⟨m₂, two⟩, (bare rfl ["a", "b\x00"]).2 (by decide), m₃, low ▸ back⟩

end Codec
end ObjectBridge
