import ObjectBridge.Proofs.Holding

/-!
# Elements of native arrays

The elements of a host array become native numbers one after the other, without a gap.  An integer
has the bits that it has as a single value.  A real number is truncated and then held within the
range of the element type, while as a single value its integer part keeps its low bits; so the two
agree wherever the integer part is in range.
-/

namespace ObjectBridge

/-- The elements of a host array as values of the host. -/
def Elements.values : Elements → List Value
  | .char items => items.map fun x => .int (Int64.ofInt x.toNat)
  | .short items => items.map fun x => .int (Int64.ofInt x.toInt)
  | .int items => items.map fun x => .int (Int64.ofInt x.toInt)
  | .long items => items.map .int
  | .float items => items.map fun x => .real x.toReal64
  | .double items => items.map .real
  | .string items => items.map .str

/-- The integer that a number of the host is truncated to, if it is finite. -/
def Value.truncated? : Value → Option Int
  | .int n => some n.toInt
  | .real r => r.datum.truncate?
  | _ => none

/-- The integers of the host. -/
def HostRange (n : Int) : Prop := -2 ^ 63 ≤ n ∧ n < 2 ^ 63

instance (n : Int) : Decidable (HostRange n) := inferInstanceAs (Decidable (_ ∧ _))

namespace IntegerFormat

variable {f : IntegerFormat} {n : Int}

/-- The integer of a format that is nearest to an integer. -/
def nearest (f : IntegerFormat) (n : Int) : Int := max f.least (min f.greatest n)

/-- An integer in range is the nearest one to itself. -/
theorem nearest_eq (least : f.least ≤ n) (greatest : n ≤ f.greatest) : f.nearest n = n := by
  rw [nearest, min_eq_right greatest, max_eq_right least]

theorem wrap_lt (f : IntegerFormat) (n : Int) : f.wrap n < f.count := by
  have below := Int.emod_lt_of_pos n (Int.natCast_pos.mpr (count_pos (f := f)))
  rw [← wrap_eq] at below
  exact Int.ofNat_lt.mp below

/-- The low bits of an integer are its remainder. -/
theorem wrap_eq_toNat (f : IntegerFormat) (n : Int) : f.wrap n = (n % 2 ^ f.width).toNat := by
  rw [wrap, count_eq, Nat.cast_pow, Nat.cast_ofNat]

theorem bytes_pos {tag : Tag} (integral : tag.integer? = some f) :
    0 < (Scalar.integer f).bytes := by
  cases tag <;> cases integral <;> decide

/-- The integers of a tag fill whole bytes. -/
theorem count_bytes {tag : Tag} (integral : tag.integer? = some f) :
    f.count = 256 ^ (Scalar.integer f).bytes := by
  cases tag <;> cases integral <;> rfl

end IntegerFormat

/-- The bytes of a word give the word back, as far as they go. -/
theorem Memory.wordOf_bytesOf (width word : Nat) :
    wordOf (Cell.bytesOf width word) = word % 256 ^ width := by
  induction width generalizing word with
  | zero => rw [Cell.bytesOf, wordOf, Nat.pow_zero, Nat.mod_one]
  | succ width ih =>
    have low : (UInt8.ofNat word).toNat = word % 256 := UInt8.toNat_ofNat'
    rw [Cell.bytesOf, wordOf, ih, low, Nat.pow_succ', Nat.mod_mul]

theorem Cell.length_bytesOf (width word : Nat) : (bytesOf width word).length = width := by
  induction width generalizing word with
  | zero => rfl
  | succ width ih => rw [bytesOf, List.length_cons, ih]

/-- What is read is read part by part. -/
theorem Memory.read_add (m : Memory) (a : Address) (i j : Nat) :
    m.read a (i + j) = m.read a i ++ m.read (a + i) j := by
  simp only [read, List.range_add, List.map_append, List.map_map, Function.comp_def, Nat.add_assoc]

theorem Memory.length_read (m : Memory) (a : Address) (count : Nat) :
    (m.read a count).length = count := by
  rw [read, List.length_map, List.length_range]

namespace Codec

open Program Descriptor

variable {calls : Calls} {w : World} {m : Memory} {t element : Token} {f : IntegerFormat}
  {elements : Elements} {items : List Number} {v : Value} {n : Int} {block : ArgumentBlock}

/-- A number of a host array as a value of its own. -/
def Number.value : Number → Value
  | .integer n => .int (Int64.ofInt n)
  | .real r => .real r

/-- The integer whose low bits an element of an array has: a real number is held within the range of
the format first. -/
def elementInteger (f : IntegerFormat) (v : Value) (n : Int) : Int :=
  match v with
  | .real _ => f.nearest n
  | _ => n

/-- The integers of a host array are integers of the host. -/
theorem hostRange_of_integer (listed : numbers? elements = some items)
    (member : .integer n ∈ items) : HostRange n := by
  cases elements with
  | char bytes =>
    cases listed
    obtain ⟨x, -, same⟩ := List.mem_map.mp member
    cases same
    have below := x.toNat_lt
    exact ⟨by omega, by omega⟩
  | short integers =>
    cases listed
    obtain ⟨x, -, same⟩ := List.mem_map.mp member
    cases same
    have least := x.le_toInt
    have greatest := x.toInt_lt
    exact ⟨by omega, by omega⟩
  | int integers =>
    cases listed
    obtain ⟨x, -, same⟩ := List.mem_map.mp member
    cases same
    have least := x.le_toInt
    have greatest := x.toInt_lt
    exact ⟨by omega, by omega⟩
  | long integers =>
    cases listed
    obtain ⟨x, -, same⟩ := List.mem_map.mp member
    cases same
    exact ⟨x.le_toInt, x.toInt_lt⟩
  | float reals | double reals =>
    cases listed
    obtain ⟨x, -, same⟩ := List.mem_map.mp member
    cases same
  | string texts => cases listed

/-- The numbers of an array are its elements. -/
theorem values_eq (listed : numbers? elements = some items) :
    elements.values = items.map Number.value := by
  cases elements with
  | string texts => cases listed
  | long integers =>
    cases listed
    rw [List.map_map]
    apply List.map_congr_left
    intro x _
    exact congrArg Value.int (Int64.ofInt_toInt x).symm
  | char | short | int | float | double =>
    cases listed
    rw [List.map_map]
    rfl

theorem toInt_ofInt_of_hostRange (range : HostRange n) : (Int64.ofInt n).toInt = n :=
  Int64.toInt_ofInt_of_le range.1 range.2

/-- A number that is truncated to an integer of the host is encoded as the low bits of that
integer. -/
theorem encodeScalar_truncated (truncated : v.truncated? = some n) (range : HostRange n) :
    encodeScalar (.integer f) v = .ok ⟨f.wrap n⟩ := by
  cases v with
  | int i =>
    cases truncated
    rfl
  | real r =>
    have integral : r.toInt64.toInt = n := by
      have whole : r.datum.clamp Int64.minValue.toInt Int64.maxValue.toInt = n := by
        change r.datum.truncate? = some n at truncated
        cases meaning : r.datum with
        | finite negative significand exponent =>
          rw [meaning] at truncated
          have least : Int64.minValue.toInt ≤ n := range.1
          have greatest : n ≤ Int64.maxValue.toInt := Int.le_of_lt_add_one range.2
          rw [Binary.Datum.clamp, truncated, Option.getD_some, min_eq_right greatest,
            max_eq_right least]
        | _ =>
          rw [meaning] at truncated
          cases truncated
      rw [Real64.toInt64, whole, toInt_ofInt_of_hostRange range]
    change Except.ok (Slot.ofInteger f r.toInt64.toInt) = _
    rw [integral]
    rfl
  | _ => cases truncated

/-- The word of an element. -/
theorem elementWord_eq {x : Number} (truncated : x.value.truncated? = some n)
    (range : ∀ i, x = .integer i → HostRange i) :
    elementWord (.integer f) x = f.wrap (elementInteger f x.value n) := by
  cases x with
  | integer i =>
    have same : (Int64.ofInt i).toInt = n := Option.some.inj truncated
    rw [toInt_ofInt_of_hostRange (range i rfl)] at same
    exact congrArg f.wrap same
  | real r =>
    change r.datum.truncate? = some n at truncated
    change f.wrap (r.datum.clamp f.least f.greatest) = f.wrap (f.nearest n)
    cases meaning : r.datum with
    | finite negative significand exponent =>
      rw [meaning] at truncated
      rw [Binary.Datum.clamp, truncated]
      rfl
    | _ =>
      rw [meaning] at truncated
      cases truncated

theorem length_elementBytes (s : Scalar) (items : List Number) :
    (elementBytes s items).length = items.length * s.bytes := by
  induction items with
  | nil => rw [elementBytes, List.flatMap_nil, List.length_nil, List.length_nil, Nat.zero_mul]
  | cons x rest ih =>
    rw [elementBytes] at ih ⊢
    rw [List.flatMap_cons, List.length_append, Cell.length_bytesOf, ih, List.length_cons,
      Nat.succ_mul, Nat.add_comm]

/-- The elements of an array lie in their places. -/
theorem readWord_elements {s : Scalar} {a : Address} {k : Nat} {x : Number}
    (read : m.read a (elementBytes s items).length = elementBytes s items)
    (here : items[k]? = some x) :
    m.readWord (a + k * s.bytes) s.bytes = elementWord s x % 256 ^ s.bytes := by
  obtain ⟨within, rfl⟩ := List.getElem?_eq_some_iff.mp here
  have split : elementBytes s items = elementBytes s (items.take k)
      ++ (Cell.bytesOf s.bytes (elementWord s items[k])
        ++ elementBytes s (items.drop (k + 1))) := by
    have parted : items = items.take k ++ items[k] :: items.drop (k + 1) := by
      rw [List.getElem_cons_drop, List.take_append_drop]
    conv_lhs => rw [parted, elementBytes, List.flatMap_append, List.flatMap_cons]
    rfl
  have before : (elementBytes s (items.take k)).length = k * s.bytes := by
    rw [length_elementBytes, List.length_take, Nat.min_eq_left (Nat.le_of_lt within)]
  rw [split, List.length_append, List.length_append, Cell.length_bytesOf, before, Memory.read_add,
    Memory.read_add] at read
  have tail := (List.append_inj read (by rw [Memory.length_read, before])).2
  have word := (List.append_inj tail (by rw [Memory.length_read, Cell.length_bytesOf])).1
  rw [Memory.readWord, word, Memory.wordOf_bytesOf]

/-- What an array shape says of its type. -/
theorem array_of_shapeFor {db : Database} {e : Entry} {zero : Bool} {size : Option Nat}
    (shaped : shapeFor db e = .ok (.array element zero size)) :
    e.tag = .array ∧ e.arrayForm = .plain ∧ e.parts[0]? = some element ∧ e.zeroTerminated = zero
      ∧ e.fixedSize? = size := by
  unfold shapeFor at shaped
  split at shaped
  case h_7 tagged =>
    split at shaped
    · next plain =>
      split at shaped
      · next part =>
        cases shaped
        exact ⟨tagged, plain, part, rfl, rfl⟩
      · cases shaped
    · cases shaped
  case h_8 =>
    split at shaped
    · split at shaped
      · exact absurd shaped (shapeForTarget_ne_array _ _ _)
      · cases shaped
    · cases shaped
  case h_9 => split at shaped <;> cases shaped
  all_goals cases shaped

/-- A type with an array shape is brought to it. -/
theorem gives_arrayShape {zero : Bool} {size : Option Nat}
    (shaped : w.database.shape? t = some (.array element zero size)) (same : w.memory = m) :
    Bridge.Gives calls (shape t) w (.ok (.array element zero size)) m := by
  unfold Database.shape? at shaped
  split at shaped
  case h_2 => cases shaped
  case h_1 e known =>
  split at shaped
  case h_2 => cases shaped
  case h_1 wanted found =>
  cases shaped
  obtain ⟨tagged, plain, part, rfl, rfl⟩ := array_of_shapeFor found
  apply (Bridge.gives_lift (gives_entry known same)).bind
  intro w₁ reached
  rw [tagged]
  rw [← reached.database] at known
  have taken : Gives calls (part? t 0) w₁ (some element) m := by
    apply (gives_entry known reached.memory).bind
    intro w₂ again
    rw [part]
    apply (gives_hold again.memory).bind
    intro w₃ held
    exact gives_pure held.memory
  unfold shapeOfArray
  rw [plain]
  exact (Bridge.gives_lift taken).bind fun _ again => Bridge.gives_pure again.memory

/-- A number is encoded under a type with an integer format as its low bits. -/
theorem gives_encode_truncated {tag : Tag} (tagged : tag? w.database element = some tag)
    (integral : tag.integer? = some f) (truncated : v.truncated? = some n) (range : HostRange n) :
    Bridge.Gives calls (encode v element block) w (.ok (⟨f.wrap n⟩, block)) w.memory := by
  obtain ⟨e, known, rfl⟩ := entry_of_tag tagged
  apply gives_encode (gives_scalarShape known (scalar_of_integer integral) rfl)
  intro w₁ reached
  have coded : Bridge.Gives calls (liftM (encodeScalar (.integer f) v) : Bridge Slot) w₁
      (.ok ⟨f.wrap n⟩) w.memory := by
    rw [encodeScalar_truncated truncated range]
    exact Bridge.gives_except reached.memory
  exact coded.bind fun _ again => Bridge.gives_pure again.memory

/-- What is kept of an encoded array: where its elements lie, and the storage that the block
owns. -/
def holdElements (s : Scalar) (items : List Number) (a : Address) (block : ArgumentBlock) :
    ArgumentBlock :=
  ⟨if items.isEmpty then [] else [(a, items.length * s.bytes)]⟩ :: block

theorem isString_of_integer {tag : Tag} (integral : tag.integer? = some f) :
    tag.isString = false := by
  cases tag <;> cases integral <;> rfl

theorem isEmpty_elementBytes {s : Scalar} (width : 0 < s.bytes) (items : List Number) :
    (elementBytes s items).isEmpty = items.isEmpty := by
  rw [Bool.eq_iff_iff, List.isEmpty_iff_length_eq_zero, List.isEmpty_iff_length_eq_zero,
    length_elementBytes, Nat.mul_eq_zero, or_iff_left (Nat.ne_of_gt width)]

/-- The elements of an array are stored one after the other, wherever memory is the same at the same
place. -/
theorem gives_holdNumbers {s : Scalar} (width : 0 < s.bytes) (m : Memory) :
    ∃ a m', (∀ w, w.memory = m → Bridge.Gives calls (holdNumbers s items block) w
        (.ok (.ofAddress a, holdElements s items a block)) m')
      ∧ m'.read a (elementBytes s items).length = elementBytes s items
      ∧ (0 < m.next → 0 < a) := by
  have empty := isEmpty_elementBytes width items
  unfold holdNumbers
  by_cases none : items.isEmpty = true
  · have nothing : elementBytes s items = [] := List.isEmpty_iff.mp (empty.trans none)
    refine ⟨s.bytes, m, fun w same => ?_, by rw [nothing]; rfl, fun _ => width⟩
    simp only [empty, none, if_true, holdElements]
    exact Bridge.gives_pure same
  · refine ⟨_, _, fun w same => ?_,
      m.read_place (elementBytes s items) (Cell.ofBytes (elementBytes s items)).length, id⟩
    simp only [empty, none, Bool.false_eq_true, if_false, holdElements,
      ← length_elementBytes s items]
    exact (Bridge.gives_lift (gives_place same)).bind fun _ again => Bridge.gives_pure again.memory

/-- Bytes are stored one after the other in storage that is handed over. -/
theorem gives_handOver (m : Memory) :
    ∃ a m', (∀ w, w.memory = m → Bridge.Gives calls (handOver items block) w
        (.ok (.ofAddress a, block)) m')
      ∧ m'.read a (elementBytes (.integer ⟨8, false⟩) items).length
        = elementBytes (.integer ⟨8, false⟩) items
      ∧ (0 < m.next → 0 < a) :=
  ⟨_, _, fun _ same =>
      (Bridge.gives_lift (gives_place same)).bind fun _ again => Bridge.gives_pure again.memory,
    m.read_place _ _, id⟩

theorem gives_encodeElements (calls : Calls) {tag : Tag} (integral : tag.integer? = some f)
    (listed : numbers? elements = some items) (block : ArgumentBlock) (m : Memory) :
    ∃ a m', (∀ w, w.memory = m → Bridge.Gives calls (encodeElements elements tag block) w
        (.ok (.ofAddress a,
          if tag = .uint8 then block else holdElements (.integer f) items a block)) m')
      ∧ m'.read a (elementBytes (.integer f) items).length = elementBytes (.integer f) items
      ∧ (0 < m.next → 0 < a) := by
  unfold encodeElements
  rw [isString_of_integer integral, scalar_of_integer integral, listed]
  by_cases bytes : tag = .uint8
  · subst bytes
    cases integral
    exact gives_handOver m
  · simp only [bytes, if_false, Bool.false_eq_true]
    exact gives_holdNumbers (IntegerFormat.bytes_pos integral) m

/-- The native array that the elements of a host array become lies at an address other than null. -/
theorem gives_placed_array (calls : Calls) {tag : Tag} {zero : Bool} {size : Option Nat}
    (shaped : w.database.shape? t = some (.array element zero size))
    (tagged : tag? w.database element = some tag) (integral : tag.integer? = some f)
    (listed : numbers? elements = some items) (block : ArgumentBlock) :
    ∃ a m, Bridge.Gives calls (encode (.array elements) t block) w
        (.ok (.ofAddress a,
          if tag = .uint8 then block else holdElements (.integer f) items a block)) m
      ∧ m.read a (elementBytes (.integer f) items).length = elementBytes (.integer f) items
      ∧ (0 < w.memory.next → 0 < a) := by
  obtain ⟨e, known, rfl⟩ := entry_of_tag tagged
  obtain ⟨a, m, given, stored⟩ := gives_encodeElements calls integral listed block w.memory
  refine ⟨a, m, gives_encode (gives_arrayShape shaped rfl) fun w₁ reached => ?_, stored⟩
  rw [← reached.database] at known
  exact (Bridge.gives_lift (gives_entry known reached.memory)).bind fun w₂ again =>
    given w₂ again.memory

/-- The native array that the elements of a host array become: the block owns its storage, except
that bytes are handed over. -/
theorem gives_encode_array (calls : Calls) {tag : Tag} {zero : Bool} {size : Option Nat}
    (shaped : w.database.shape? t = some (.array element zero size))
    (tagged : tag? w.database element = some tag) (integral : tag.integer? = some f)
    (listed : numbers? elements = some items) (block : ArgumentBlock) :
    ∃ a m, Bridge.Gives calls (encode (.array elements) t block) w
        (.ok (.ofAddress a,
          if tag = .uint8 then block else holdElements (.integer f) items a block)) m
      ∧ m.read a (elementBytes (.integer f) items).length = elementBytes (.integer f) items := by
  obtain ⟨a, m, given, read, _⟩ := gives_placed_array calls shaped tagged integral listed block
  exact ⟨a, m, given, read⟩

/-- The element at a place has the low bits of its integer. -/
theorem readWord_truncated {tag : Tag} {a : Address} {k : Nat} (integral : tag.integer? = some f)
    (listed : numbers? elements = some items)
    (read : m.read a (elementBytes (.integer f) items).length = elementBytes (.integer f) items)
    (here : elements.values[k]? = some v) (truncated : v.truncated? = some n) :
    m.readWord (a + k * (f.width / 8)) (f.width / 8)
      = (elementInteger f v n % 2 ^ f.width).toNat := by
  rw [values_eq listed, List.getElem?_map, Option.map_eq_some_iff] at here
  obtain ⟨x, here, rfl⟩ := here
  have stored := readWord_elements read here
  rw [elementWord_eq truncated
      fun i same => hostRange_of_integer listed (same ▸ List.mem_of_getElem? here),
    ← IntegerFormat.count_bytes integral, Nat.mod_eq_of_lt (IntegerFormat.wrap_lt _ _),
    IntegerFormat.wrap_eq_toNat] at stored
  exact stored

/-- Integers, and real numbers whose integer part is in range, stay as they are. -/
theorem elementInteger_eq (kept : (∃ i, v = .int i) ∨ f.least ≤ n ∧ n ≤ f.greatest) :
    elementInteger f v n = n := by
  rcases kept with ⟨i, rfl⟩ | ⟨least, greatest⟩
  · rfl
  · cases v with
    | real r => exact IntegerFormat.nearest_eq least greatest
    | _ => rfl

/-- Integer elements of a native array have the bits of single values, and real ones do wherever
they are in range.  For a host array of numbers and an array type with integer elements, encoding
ends with the address of a native array, whose storage the argument block owns, except that bytes
are handed over.  Each element that is truncated to an integer of the host has, as a single value of
the element type, the low bits of that integer.  In the native array it has those bits as well if it
is an integer or if the integer is in the range of the type, and else the bits of the nearest
integer of the type. -/
theorem array_elements (calls : Calls) (w : World) (t element : Token) (zero : Bool)
    (size : Option Nat) (tag : Tag) (f : IntegerFormat) (elements : Elements)
    (items : List Number) (block : ArgumentBlock)
    (shaped : w.database.shape? t = some (.array element zero size))
    (tagged : tag? w.database element = some tag) (integral : tag.integer? = some f)
    (listed : numbers? elements = some items) :
    ∃ a m, Bridge.Gives calls (encode (.array elements) t block) w
        (.ok (.ofAddress a,
          if tag = .uint8 then block else holdElements (.integer f) items a block)) m
      ∧ ∀ k v n, elements.values[k]? = some v → v.truncated? = some n → HostRange n →
        Bridge.Gives calls (encode v element block) w (.ok (⟨(n % 2 ^ f.width).toNat⟩, block))
            w.memory
          ∧ m.readWord (a + k * (f.width / 8)) (f.width / 8)
            = (elementInteger f v n % 2 ^ f.width).toNat
          ∧ ((∃ i, v = .int i) ∨ f.least ≤ n ∧ n ≤ f.greatest →
            m.readWord (a + k * (f.width / 8)) (f.width / 8) = (n % 2 ^ f.width).toNat) := by
  obtain ⟨a, m, given, read⟩ := gives_encode_array calls shaped tagged integral listed block
  refine ⟨a, m, given, fun k v n here truncated range => ?_⟩
  have stored := readWord_truncated integral listed read here truncated
  refine ⟨?_, stored, fun kept => ?_⟩
  · rw [← IntegerFormat.wrap_eq_toNat]
    exact gives_encode_truncated tagged integral truncated range
  · rw [stored, elementInteger_eq kept]

/-- The types of bytes, of arrays of bytes, of signed bytes and of arrays of these. -/
def sampleArrayTypes : List Script.Step :=
  [.declare (.type (.array (.plain .uint8) .plain false none none)) none,
    .declare (.type (.array (.plain .int8) .plain false none none)) none]

/-- The world after the array types were declared. -/
def sampleArrayWorld : World := (Session.advanceAll 1 sampleArrayTypes (Session.start {})).2

theorem array_elements_bytes :
    sampleArrayWorld.database.shape? 2 = some (.array 1 false none)
      ∧ ∃ a m, Bridge.Gives (Session.calls 0) (encode (.array (.long [-1, 300])) 2 [])
          sampleArrayWorld (.ok (.ofAddress a, [])) m
        ∧ m.readWord a 1 = 255 ∧ m.readWord (a + 1) 1 = 44
        ∧ Bridge.Gives (Session.calls 0) (encode (.int 300) 1 []) sampleArrayWorld
          (.ok (⟨44⟩, [])) sampleArrayWorld.memory := by
  have shaped : sampleArrayWorld.database.shape? 2 = some (.array 1 false none) := by
    decide +kernel
  obtain ⟨a, m, given, stored⟩ := array_elements (Session.calls 0) sampleArrayWorld 2 1 false none
    .uint8 ⟨8, false⟩ (.long [-1, 300]) [.integer (-1), .integer 300] [] shaped (by decide +kernel)
    rfl rfl
  obtain ⟨_, _, first⟩ := stored 0 (.int (-1)) (-1) rfl rfl (by decide)
  obtain ⟨single, _, second⟩ := stored 1 (.int 300) 300 rfl rfl (by decide)
  exact ⟨shaped, a, m, given, first (.inl ⟨_, rfl⟩), second (.inl ⟨_, rfl⟩), single⟩

/-- A real element beyond the range of its type has other bits than as a single value: three hundred
becomes the greatest signed byte in an array, and loses its high bits on its own. -/
theorem real_element_held :
    ∃ a m, Bridge.Gives (Session.calls 0) (encode (.array (.double [⟨0x4072c00000000000⟩])) 4 [])
        sampleArrayWorld (.ok (.ofAddress a, [⟨[(a, 1)]⟩])) m
      ∧ (Value.real ⟨0x4072c00000000000⟩).truncated? = some 300
      ∧ m.readWord a 1 = 127
      ∧ Bridge.Gives (Session.calls 0) (encode (.real ⟨0x4072c00000000000⟩) 3 []) sampleArrayWorld
        (.ok (⟨44⟩, [])) sampleArrayWorld.memory := by
  have shaped : sampleArrayWorld.database.shape? 4 = some (.array 3 false none) := by
    decide +kernel
  have tagged : tag? sampleArrayWorld.database 3 = some .int8 := by decide +kernel
  have truncated : (Value.real ⟨0x4072c00000000000⟩).truncated? = some 300 := by decide
  have listed : numbers? (.double [⟨0x4072c00000000000⟩]) = some [.real ⟨0x4072c00000000000⟩] := rfl
  have integral : Tag.int8.integer? = some ⟨8, true⟩ := rfl
  obtain ⟨a, m, given, read⟩ :=
    gives_encode_array (Session.calls 0) shaped tagged integral listed []
  have stored := readWord_truncated (k := 0) integral listed read rfl truncated
  exact ⟨a, m, given, truncated, stored, gives_encode_truncated tagged rfl truncated (by decide)⟩

end Codec
end ObjectBridge
