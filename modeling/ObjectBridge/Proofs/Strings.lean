import ObjectBridge.Memory
import Mathlib.Data.List.Basic
import Mathlib.Tactic.Common

/-!
# Native strings are read back

Reading the bytes of a text as UTF-8 gives the text back, and a text without a zero character has
no zero byte.  So a text that is placed in memory with a zero byte behind it is read back as it was.
-/

namespace ObjectBridge
namespace Text

theorem toNat_byte {n : Nat} (small : n < 256) : (UInt8.ofNat n).toNat = n := by
  rw [UInt8.toNat_ofNat']
  exact Nat.mod_eq_of_lt small

/-- The number of a character is no surrogate, and not beyond the last plane. -/
theorem toNat_valid (c : Char) : c.toNat < 0xD800 ∨ 0xDFFF < c.toNat ∧ c.toNat < 0x110000 := c.valid

/-- A byte that may stand in a continuation. -/
theorem isTrailing_byte (n : Nat) : isTrailing (UInt8.ofNat (0x80 + n % 64)) = true := by
  have rest : n % 64 < 64 := Nat.mod_lt n (by decide)
  simp only [isTrailing, Bool.and_eq_true, decide_eq_true_eq]
  rw [toNat_byte (by omega)]
  omega

theorem inside {n low high : Nat} (least : low ≤ n) (greatest : n ≤ high) :
    ¬(n < low || high < n) = true := by
  rw [Bool.or_eq_true, decide_eq_true_eq, decide_eq_true_eq]
  omega

section Sequences

variable {a b c d : UInt8} {rest : List UInt8} {low high : Nat}

theorem decodeChars_one (lead : a.toNat < 0x80) :
    decodeChars (a :: rest) = Char.ofNat a.toNat :: decodeChars rest := by
  rw [decodeChars, if_pos lead]

theorem decodeChars_two (lead : 0x80 ≤ a.toNat)
    (next : continuation? a.toNat = some ⟨1, low, high⟩) (least : low ≤ b.toNat)
    (greatest : b.toNat ≤ high) :
    decodeChars (a :: b :: rest)
      = Char.ofNat ((a.toNat - 0xC0) * 64 + (b.toNat - 0x80)) :: decodeChars rest := by
  rw [decodeChars, if_neg (Nat.not_lt.mpr lead), next]
  dsimp only
  rw [if_neg (inside least greatest), if_pos rfl]

theorem decodeChars_three (lead : 0x80 ≤ a.toNat)
    (next : continuation? a.toNat = some ⟨2, low, high⟩) (least : low ≤ b.toNat)
    (greatest : b.toNat ≤ high) (third : isTrailing c = true) :
    decodeChars (a :: b :: c :: rest)
      = Char.ofNat ((a.toNat - 0xE0) * 4096 + (b.toNat - 0x80) * 64 + (c.toNat - 0x80))
        :: decodeChars rest := by
  rw [decodeChars, if_neg (Nat.not_lt.mpr lead), next]
  dsimp only
  rw [if_neg (inside least greatest), if_neg (by decide), third, if_neg (by decide), if_pos rfl]

theorem decodeChars_four (lead : 0x80 ≤ a.toNat)
    (next : continuation? a.toNat = some ⟨3, low, high⟩) (least : low ≤ b.toNat)
    (greatest : b.toNat ≤ high) (third : isTrailing c = true) (fourth : isTrailing d = true) :
    decodeChars (a :: b :: c :: d :: rest)
      = Char.ofNat ((a.toNat - 0xF0) * 262144 + (b.toNat - 0x80) * 4096 + (c.toNat - 0x80) * 64
          + (d.toNat - 0x80)) :: decodeChars rest := by
  rw [decodeChars, if_neg (Nat.not_lt.mpr lead), next]
  dsimp only
  rw [if_neg (inside least greatest), if_neg (by decide), third, if_neg (by decide), if_neg (by decide), fourth,
    if_neg (by decide)]

end Sequences

theorem continuation_two {n : Nat} (least : 0x80 ≤ n) (below : n < 0x800) :
    continuation? (0xC0 + n / 64) = some ⟨1, 0x80, 0xBF⟩ := by
  rw [continuation?, if_neg (by omega), if_pos (by omega)]

/-- The second byte of a sequence of three is in the range that the first byte announces: the
overlong sequences and the surrogates are outside it. -/
theorem continuation_three {n : Nat} (least : 0x800 ≤ n) (below : n < 0x10000)
    (valid : n < 0xD800 ∨ 0xDFFF < n) :
    ∃ low high, continuation? (0xE0 + n / 4096) = some ⟨2, low, high⟩
      ∧ low ≤ 0x80 + n / 64 % 64 ∧ 0x80 + n / 64 % 64 ≤ high := by
  rw [continuation?, if_neg (by omega), if_neg (by omega)]
  split
  · exact ⟨_, _, rfl, by omega, by omega⟩
  · split
    · exact ⟨_, _, rfl, by omega, by omega⟩
    · rw [if_pos (by omega)]
      exact ⟨_, _, rfl, by omega, by omega⟩

theorem continuation_four {n : Nat} (least : 0x10000 ≤ n) (below : n < 0x110000) :
    ∃ low high, continuation? (0xF0 + n / 262144) = some ⟨3, low, high⟩
      ∧ low ≤ 0x80 + n / 4096 % 64 ∧ 0x80 + n / 4096 % 64 ≤ high := by
  rw [continuation?, if_neg (by omega), if_neg (by omega), if_neg (by omega), if_neg (by omega),
    if_neg (by omega)]
  split
  · exact ⟨_, _, rfl, by omega, by omega⟩
  · split
    · exact ⟨_, _, rfl, by omega, by omega⟩
    · rw [if_pos (by omega)]
      exact ⟨_, _, rfl, by omega, by omega⟩

section Numbers

variable {n : Nat} {rest : List UInt8}

theorem decode_two (least : 0x80 ≤ n) (below : n < 0x800) :
    decodeChars (UInt8.ofNat (0xC0 + n / 64) :: UInt8.ofNat (0x80 + n % 64) :: rest)
      = Char.ofNat n :: decodeChars rest := by
  have lead : (UInt8.ofNat (0xC0 + n / 64)).toNat = 0xC0 + n / 64 := toNat_byte (by omega)
  have second : (UInt8.ofNat (0x80 + n % 64)).toNat = 0x80 + n % 64 := toNat_byte (by omega)
  have rebuilt : (0xC0 + n / 64 - 0xC0) * 64 + (0x80 + n % 64 - 0x80) = n := by omega
  rw [decodeChars_two (by omega) (lead ▸ continuation_two least below) (by omega) (by omega), lead,
    second, rebuilt]

theorem decode_three (least : 0x800 ≤ n) (below : n < 0x10000) (valid : n < 0xD800 ∨ 0xDFFF < n) :
    decodeChars (UInt8.ofNat (0xE0 + n / 4096) :: UInt8.ofNat (0x80 + n / 64 % 64)
        :: UInt8.ofNat (0x80 + n % 64) :: rest)
      = Char.ofNat n :: decodeChars rest := by
  have lead : (UInt8.ofNat (0xE0 + n / 4096)).toNat = 0xE0 + n / 4096 := toNat_byte (by omega)
  have second : (UInt8.ofNat (0x80 + n / 64 % 64)).toNat = 0x80 + n / 64 % 64 :=
    toNat_byte (by omega)
  have third : (UInt8.ofNat (0x80 + n % 64)).toNat = 0x80 + n % 64 := toNat_byte (by omega)
  have rebuilt : (0xE0 + n / 4096 - 0xE0) * 4096 + (0x80 + n / 64 % 64 - 0x80) * 64
      + (0x80 + n % 64 - 0x80) = n := by omega
  obtain ⟨low, high, next, lower, upper⟩ := continuation_three least below valid
  rw [decodeChars_three (by omega) (lead ▸ next) (by omega) (by omega) (isTrailing_byte _), lead,
    second, third, rebuilt]

theorem decode_four (least : 0x10000 ≤ n) (below : n < 0x110000) :
    decodeChars (UInt8.ofNat (0xF0 + n / 262144) :: UInt8.ofNat (0x80 + n / 4096 % 64)
        :: UInt8.ofNat (0x80 + n / 64 % 64) :: UInt8.ofNat (0x80 + n % 64) :: rest)
      = Char.ofNat n :: decodeChars rest := by
  have lead : (UInt8.ofNat (0xF0 + n / 262144)).toNat = 0xF0 + n / 262144 := toNat_byte (by omega)
  have second : (UInt8.ofNat (0x80 + n / 4096 % 64)).toNat = 0x80 + n / 4096 % 64 :=
    toNat_byte (by omega)
  have third : (UInt8.ofNat (0x80 + n / 64 % 64)).toNat = 0x80 + n / 64 % 64 :=
    toNat_byte (by omega)
  have fourth : (UInt8.ofNat (0x80 + n % 64)).toNat = 0x80 + n % 64 := toNat_byte (by omega)
  have rebuilt : (0xF0 + n / 262144 - 0xF0) * 262144 + (0x80 + n / 4096 % 64 - 0x80) * 4096
      + (0x80 + n / 64 % 64 - 0x80) * 64 + (0x80 + n % 64 - 0x80) = n := by omega
  obtain ⟨low, high, next, lower, upper⟩ := continuation_four least below
  rw [decodeChars_four (by omega) (lead ▸ next) (by omega) (by omega) (isTrailing_byte _)
    (isTrailing_byte _), lead, second, third, fourth, rebuilt]

end Numbers

/-- The bytes of a character are read as that character. -/
theorem decodeChars_encodeChar (c : Char) (rest : List UInt8) :
    decodeChars (encodeChar c ++ rest) = c :: decodeChars rest := by
  have valid := toNat_valid c
  have whole : Char.ofNat c.toNat = c := Char.ofNat_toNat c
  rw [encodeChar]
  split
  · next one =>
    have lead : (UInt8.ofNat c.toNat).toNat = c.toNat := toNat_byte (by omega)
    rw [List.cons_append, List.nil_append, decodeChars_one (by omega), lead, whole]
  · split
    · next many two =>
      simp only [List.cons_append, List.nil_append]
      rw [decode_two (by omega) two, whole]
    · split
      · next _ many three =>
        simp only [List.cons_append, List.nil_append]
        rw [decode_three (by omega) three (by omega), whole]
      · next _ _ many =>
        simp only [List.cons_append, List.nil_append]
        rw [decode_four (by omega) (by omega), whole]

theorem decodeChars_encodeChars (chars : List Char) : decodeChars (encodeChars chars) = chars := by
  induction chars with
  | nil => rw [encodeChars, List.flatMap_nil, decodeChars]
  | cons c rest ih =>
    rw [encodeChars] at ih ⊢
    rw [List.flatMap_cons, decodeChars_encodeChar, ih]

/-- The bytes of a text are read as that text. -/
theorem decode_encode (text : String) : decode (encode text) = text := by
  rw [decode, encode, decodeChars_encodeChars, String.ofList_toList]

/-- Only the zero character has a zero byte. -/
theorem zero_not_mem_encodeChar {c : Char} (nonzero : c ≠ '\x00') : 0 ∉ encodeChar c := by
  have positive : c.toNat ≠ 0 := by
    intro zero
    apply nonzero
    rw [← Char.ofNat_toNat c, zero]
  have valid := toNat_valid c
  have marked {n : Nat} (least : 0 < n) (below : n < 256) : 0 ≠ UInt8.ofNat n := by
    intro zero
    have same := congrArg UInt8.toNat zero
    rw [toNat_byte below] at same
    exact Nat.ne_of_lt least same
  rw [encodeChar]
  split
  · simp only [List.mem_cons, List.not_mem_nil, or_false]
    exact marked (by omega) (by omega)
  · split
    · simp only [List.mem_cons, List.not_mem_nil, or_false, not_or]
      exact ⟨marked (by omega) (by omega), marked (by omega) (by omega)⟩
    · split
      · simp only [List.mem_cons, List.not_mem_nil, or_false, not_or]
        exact ⟨marked (by omega) (by omega), marked (by omega) (by omega),
          marked (by omega) (by omega)⟩
      · simp only [List.mem_cons, List.not_mem_nil, or_false, not_or]
        exact ⟨marked (by omega) (by omega), marked (by omega) (by omega),
          marked (by omega) (by omega), marked (by omega) (by omega)⟩

/-- A text without a zero character has no zero byte. -/
theorem zero_not_mem_encode {text : String} (plain : '\x00' ∉ text.toList) : 0 ∉ encode text := by
  intro member
  rw [encode, encodeChars, List.mem_flatMap] at member
  obtain ⟨c, within, zero⟩ := member
  apply zero_not_mem_encodeChar _ zero
  intro same
  exact plain (same ▸ within)

end Text

theorem Cell.length_ofBytes (bytes : List UInt8) : (Cell.ofBytes bytes).length = bytes.length := by
  rw [Cell.ofBytes, List.length_map]

namespace Memory

variable {m : Memory} {a : Address} {bytes : List UInt8}

/-- What was placed last is what lies there. -/
theorem cell_place (m : Memory) (cells : List Cell) (size : Nat) {i : Nat}
    (within : i < cells.length) :
    (m.place cells size).2.cell ((m.place cells size).1 + i) = cells[i] := by
  have covered : Write.cell? ⟨m.next, cells⟩ (m.next + i) = some cells[i] := by
    rw [Write.cell?, if_pos (Nat.le_add_right _ _), Nat.add_sub_cancel_left,
      List.getElem?_eq_getElem within]
  have first : (m.place cells size).2.writes = ⟨m.next, cells⟩ :: m.writes := rfl
  change ((m.place cells size).2.writes.findSome? fun w => w.cell? (m.next + i)).getD _ = _
  rw [first, List.findSome?_cons, covered]
  rfl

theorem read_succ (m : Memory) (a : Address) (count : Nat) :
    m.read a (count + 1) = m.byte a :: m.read (a + 1) count := by
  rw [read, List.range_succ_eq_map, List.map_cons, List.map_map, read, Nat.add_zero]
  congr 1
  apply List.map_congr_left
  intro i _
  change m.byte (a + (i + 1)) = m.byte (a + 1 + i)
  rw [Nat.add_right_comm, Nat.add_assoc]

/-- Bytes that were placed last are read as they are. -/
theorem read_place (m : Memory) (bytes : List UInt8) (size : Nat) :
    (m.place (Cell.ofBytes bytes) size).2.read (m.place (Cell.ofBytes bytes) size).1 bytes.length
      = bytes := by
  apply List.ext_getElem
  · rw [read, List.length_map, List.length_range]
  · intro i _ within
    have inside : i < (Cell.ofBytes bytes).length := by rwa [Cell.length_ofBytes]
    simp only [read, List.getElem_map, List.getElem_range, byte]
    rw [cell_place m _ size inside]
    simp only [Cell.ofBytes, List.getElem_map, Cell.value]

/-- Bytes that end with a zero byte are read up to it. -/
theorem untilZero_of_read (plain : 0 ∉ bytes) (read : m.read a (bytes.length + 1) = bytes ++ [0])
    {limit : Nat} (room : bytes.length < limit) : m.untilZero a limit = bytes := by
  induction bytes generalizing a limit with
  | nil =>
    cases limit with
    | zero => exact absurd room (Nat.not_lt_zero _)
    | succ limit =>
      rw [read_succ] at read
      rw [untilZero, if_pos (List.cons.inj read).1]
  | cons b rest ih =>
    cases limit with
    | zero => exact absurd room (Nat.not_lt_zero _)
    | succ limit =>
      rw [List.length_cons, read_succ, List.cons_append, List.cons.injEq] at read
      rw [List.mem_cons, not_or] at plain
      rw [untilZero, read.1, if_neg (Ne.symm plain.1), ih plain.2 read.2 (Nat.lt_of_succ_lt_succ room)]

theorem length_le_extent (m : Memory) (cells : List Cell) (size : Nat) :
    cells.length ≤ (m.place cells size).2.extent :=
  Nat.le_add_right _ _

/-- A text without a zero character that is placed with a zero byte behind it is read back. -/
theorem text_place (m : Memory) {text : String} (plain : '\x00' ∉ text.toList) (size : Nat) :
    (m.place (Cell.ofBytes (Text.encode text ++ [0])) size).2.text
      (m.place (Cell.ofBytes (Text.encode text ++ [0])) size).1 = text := by
  have read := m.read_place (Text.encode text ++ [0]) size
  rw [List.length_append, List.length_singleton] at read
  have room := m.length_le_extent (Cell.ofBytes (Text.encode text ++ [0])) size
  rw [Cell.length_ofBytes, List.length_append, List.length_singleton] at room
  rw [Memory.text, stringBytes, untilZero_of_read (Text.zero_not_mem_encode plain) read room,
    Text.decode_encode]

end Memory
end ObjectBridge
