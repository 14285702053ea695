import Mathlib.Data.List.Perm.Subperm
import ObjectBridge.Proofs.Fields

/-!
# Where reading ends

Reading a native string ends at a zero byte, and reading a vector of strings at a null address.
Both end within as many cells as were ever written, because a cell that was never written is zero.
So what is read depends on the cells up to that end alone.
-/

namespace ObjectBridge
namespace Memory

variable {m m' : Memory} {a : Address}

/-- The addresses that were ever written. -/
def written (m : Memory) : List Address :=
  m.writes.flatMap fun w => (List.range w.cells.length).map (w.start + ·)

theorem length_written (m : Memory) : m.written.length = m.extent := by
  rw [written, extent]
  induction m.writes with
  | nil => rfl
  | cons w rest ih =>
    rw [List.flatMap_cons, List.length_append, List.length_map, List.length_range, ih,
      List.foldr_cons]

/-- What was never written is zero. -/
theorem cell_unwritten (bare : a ∉ m.written) : m.cell a = .byte 0 := by
  have none : m.writes.findSome? (fun w => w.cell? a) = none := by
    refine List.findSome?_eq_none_iff.mpr fun w member => ?_
    rw [Write.cell?]
    split
    · next from_start =>
      rw [List.getElem?_eq_none_iff]
      by_contra within
      refine bare (List.mem_flatMap.mpr ⟨w, member, List.mem_map.mpr ⟨a - w.start, ?_, ?_⟩⟩)
      · exact List.mem_range.mpr (Nat.lt_of_not_le within)
      · exact Nat.add_sub_cancel' from_start
    · rfl
  rw [cell, none, Option.getD_none]

/-- Among more places than were ever written there is one that was not. -/
theorem exists_unwritten (m : Memory) {place : Nat → Address} (distinct : place.Injective) :
    ∃ k ≤ m.extent, place k ∉ m.written := by
  by_contra all
  simp only [not_exists, not_and, not_not] at all
  have nodup : ((List.range (m.extent + 1)).map place).Nodup := List.nodup_range.map distinct
  have subset : (List.range (m.extent + 1)).map place ⊆ m.written := by
    intro b member
    obtain ⟨k, within, rfl⟩ := List.mem_map.mp member
    exact all k (Nat.le_of_lt_succ (List.mem_range.mp within))
  have short := (nodup.subperm subset).length_le
  rw [List.length_map, List.length_range, length_written] at short
  exact Nat.not_succ_le_self _ short

/-- Bytes are read up to the first zero byte, whatever the limit beyond it. -/
theorem untilZero_eq {n limit : Nat} (before : ∀ i < n, m.byte (a + i) ≠ 0)
    (zero : m.byte (a + n) = 0) (room : n ≤ limit) : m.untilZero a limit = m.read a n := by
  induction n generalizing a limit with
  | zero =>
    rw [Nat.add_zero] at zero
    cases limit with
    | zero => rfl
    | succ limit =>
      rw [untilZero, if_pos zero]
      rfl
  | succ n ih =>
    cases limit with
    | zero => exact absurd room (Nat.not_succ_le_zero n)
    | succ limit =>
      have rest : m.untilZero (a + 1) limit = m.read (a + 1) n := by
        refine ih (fun i within => ?_) ?_ (Nat.le_of_succ_le_succ room)
        · rw [Nat.add_assoc, Nat.add_comm 1]
          exact before (i + 1) (Nat.succ_lt_succ within)
        · rwa [Nat.add_assoc, Nat.add_comm 1]
      have first : m.byte a ≠ 0 := before 0 (Nat.succ_pos n)
      rw [untilZero, read_succ, if_neg first, rest]

/-- A native string ends at the first zero byte, within as many bytes as were ever written. -/
theorem exists_zero (m : Memory) (a : Address) :
    ∃ n ≤ m.extent, (∀ i < n, m.byte (a + i) ≠ 0) ∧ m.byte (a + n) = 0 := by
  have distinct : Function.Injective fun n : Nat => a + n := fun _ _ => Nat.add_left_cancel
  obtain ⟨k, within, bare⟩ := m.exists_unwritten distinct
  have zero : m.byte (a + k) = 0 := by rw [byte, cell_unwritten bare]; rfl
  have ends : ∃ n, m.byte (a + n) = 0 := ⟨k, zero⟩
  exact ⟨Nat.find ends, Nat.le_trans (Nat.find_min' ends zero) within,
    fun i less => Nat.find_min ends less, Nat.find_spec ends⟩

/-- The bytes of a native string are those up to its zero byte. -/
theorem stringBytes_eq {n : Nat} (before : ∀ i < n, m.byte (a + i) ≠ 0)
    (zero : m.byte (a + n) = 0) : m.stringBytes a = m.read a n := by
  obtain ⟨k, within, others, end_⟩ := m.exists_zero a
  have same : k = n := by
    refine Nat.le_antisymm (Nat.le_of_not_lt fun less => ?_) (Nat.le_of_not_lt fun less => ?_)
    · exact others n less zero
    · exact before k less end_
  exact untilZero_eq before zero (same ▸ within)

/-- The addresses that reading a native string looks at: those of its bytes and of the zero byte. -/
def TextSpan (m : Memory) (a b : Address) : Prop := a ≤ b ∧ b ≤ a + (m.stringBytes a).length

/-- A text depends on the cells up to its end. -/
theorem text_congr (same : ∀ b, m.TextSpan a b → m'.cell b = m.cell b) : m'.text a = m.text a := by
  obtain ⟨n, _, before, zero⟩ := m.exists_zero a
  have bytes : m.stringBytes a = m.read a n := stringBytes_eq before zero
  have length : (m.stringBytes a).length = n := by rw [bytes, length_read]
  have each {i : Nat} (within : i ≤ n) : m'.byte (a + i) = m.byte (a + i) := by
    rw [byte, byte, same _ ⟨Nat.le_add_right a i, length ▸ Nat.add_le_add_left within a⟩]
  have again : m'.stringBytes a = m'.read a n :=
    stringBytes_eq (fun i less => each (Nat.le_of_lt less) ▸ before i less)
      (each (Nat.le_refl n) ▸ zero)
  have read : m'.read a n = m.read a n :=
    List.map_congr_left fun i member => each (Nat.le_of_lt (List.mem_range.mp member))
  rw [text, text, again, bytes, read]

/-- The null address lies wherever nothing was written. -/
theorem readAddress_unwritten (bare : ∀ i < 8, a + i ∉ m.written) : m.readAddress a = 0 := by
  have cells (i : Nat) (within : i < 8) : m.cell (a + i) = .byte 0 := cell_unwritten (bare i within)
  have first : m.cell a = .byte 0 := cells 0 (by decide)
  have bytes : m.read a 8 = (List.range 8).map fun _ => 0 := by
    refine List.map_congr_left fun i member => ?_
    rw [byte, cells i (List.mem_range.mp member)]
    rfl
  rw [readAddress, storedAddress?, first, readWord, bytes]
  rfl

/-- A vector of addresses ends within as many addresses as cells were ever written. -/
theorem exists_null (m : Memory) (a : Address) : ∃ k ≤ m.extent, m.readAddress (a + 8 * k) = 0 := by
  by_contra all
  simp only [not_exists, not_and] at all
  -- Where no address is null, every one of them has a cell that was written.
  have cover (k : Nat) : ∃ i : Nat, i < 8 ∧ (k ≤ m.extent → a + 8 * k + i ∈ m.written) := by
    by_cases within : k ≤ m.extent
    · by_contra bare
      refine all k within
        (readAddress_unwritten fun i less member => bare ⟨i, less, fun _ => member⟩)
    · exact ⟨0, by decide, fun inside => absurd inside within⟩
  choose offset less member using cover
  have distinct : Function.Injective fun k => a + 8 * k + offset k := by
    intro i j (same : a + 8 * i + offset i = a + 8 * j + offset j)
    have first := less i
    have second := less j
    have same : 8 * i + offset i = 8 * j + offset j := by
      rw [Nat.add_assoc, Nat.add_assoc] at same
      exact Nat.add_left_cancel same
    omega
  obtain ⟨k, within, bare⟩ := m.exists_unwritten distinct
  exact bare (member k within)

/-- The addresses that reading a vector of strings looks at, up to a limit: those of the addresses
of its strings and of the null address behind them, and those of the strings themselves. -/
def TextsSpan (m : Memory) : Address → Nat → Address → Prop
  | _, 0, _ => False
  | a, limit + 1, b => (a ≤ b ∧ b < a + 8)
    ∨ m.readAddress a ≠ 0 ∧ (m.TextSpan (m.readAddress a) b ∨ m.TextsSpan (a + 8) limit b)

/-- The texts of a vector depend on the cells up to its end. -/
theorem texts_congr {limit : Nat} (same : ∀ b, m.TextsSpan a limit b → m'.cell b = m.cell b) :
    m'.texts a limit = m.texts a limit := by
  induction limit generalizing a with
  | zero => rfl
  | succ limit ih =>
    have first : m'.readAddress a = m.readAddress a :=
      readAddress_congr fun i within =>
        same _ (.inl ⟨Nat.le_add_right a i, Nat.add_lt_add_left within a⟩)
    rw [texts, texts, first]
    split
    · rfl
    · next present =>
      rw [text_congr fun b inside => same b (.inr ⟨present, .inl inside⟩),
        ih fun b inside => same b (.inr ⟨present, .inr inside⟩)]

/-- A vector that ends within a limit has no more texts beyond it. -/
theorem texts_of_null {k limit : Nat} (null : m.readAddress (a + 8 * k) = 0) (within : k ≤ limit) :
    m.texts a limit = m.texts a k := by
  induction k generalizing a limit with
  | zero =>
    rw [Nat.mul_zero, Nat.add_zero] at null
    cases limit with
    | zero => rfl
    | succ limit =>
      rw [texts]
      exact if_pos null
  | succ k ih =>
    cases limit with
    | zero => exact absurd within (Nat.not_succ_le_zero k)
    | succ limit =>
      have later : m.readAddress (a + 8 + 8 * k) = 0 := by
        rwa [Nat.add_assoc, Nat.add_comm 8, ← Nat.mul_succ]
      rw [texts, texts, ih later (Nat.le_of_succ_le_succ within)]

/-- A vector has ended within as many strings as cells were ever written. -/
theorem texts_extent {limit : Nat} (enough : m.extent ≤ limit) :
    m.texts a limit = m.texts a m.extent := by
  obtain ⟨k, within, null⟩ := m.exists_null a
  rw [texts_of_null null (Nat.le_trans within enough), texts_of_null null within]

theorem wordOf_append (low high : List UInt8) :
    wordOf (low ++ high) = wordOf low + 256 ^ low.length * wordOf high := by
  induction low with
  | nil => rw [List.nil_append, wordOf, List.length_nil, Nat.pow_zero, Nat.one_mul, Nat.zero_add]
  | cons b low ih =>
    rw [List.cons_append, wordOf, ih, wordOf, List.length_cons, Nat.pow_succ', Nat.mul_add,
      Nat.mul_assoc, Nat.add_assoc]

theorem wordOf_lt (bytes : List UInt8) : wordOf bytes < 256 ^ bytes.length := by
  induction bytes with
  | nil => exact Nat.one_pos
  | cons b bytes ih =>
    have small := b.toNat_lt
    rw [wordOf, List.length_cons, Nat.pow_succ']
    omega

theorem Cell.bytesOf_eq_map (width word : Nat) :
    Cell.bytesOf width word = (List.range width).map fun i => (Cell.part word i).value := by
  induction width generalizing word with
  | zero => rfl
  | succ width ih =>
    rw [Cell.bytesOf, ih, List.range_succ_eq_map, List.map_cons, List.map_map]
    congr 1
    · exact congrArg UInt8.ofNat (Nat.div_one word).symm
    · refine List.map_congr_left fun i _ => congrArg UInt8.ofNat ?_
      rw [Nat.div_div_eq_div_mul]
      exact congrArg (word / ·) (Nat.pow_succ' (n := i) (m := 256)).symm

/-- The low bytes of what is stored in eight bytes are the first of them. -/
theorem readAddress_mod (m : Memory) (a : Address) {width : Nat} (within : width ≤ 8) :
    m.readAddress a % 256 ^ width = m.readWord a width := by
  rw [readAddress, readWord]
  cases stored : m.storedAddress? a with
  | none =>
    obtain ⟨rest, split⟩ := Nat.exists_eq_add_of_le within
    have below : wordOf (m.read a width) < 256 ^ width := by
      simpa only [length_read] using wordOf_lt (m.read a width)
    rw [Option.getD_none, readWord, split, read_add, wordOf_append, length_read,
      Nat.add_mul_mod_self_left, Nat.mod_eq_of_lt below]
  | some s =>
    have parts (i : Nat) (inside : i < 8) : m.cell (a + i) = .part s i := by
      rw [storedAddress?] at stored
      split at stored
      · cases stored
      · split at stored
        · next all =>
          cases stored
          exact of_decide_eq_true (List.all_eq_true.mp all i (List.mem_range.mpr inside))
        · cases stored
    have bytes : m.read a width = Cell.bytesOf width s := by
      rw [Cell.bytesOf_eq_map]
      refine List.map_congr_left fun i member => ?_
      rw [byte, parts i (Nat.lt_of_lt_of_le (List.mem_range.mp member) within)]
    rw [Option.getD_some, readWord, bytes, wordOf_bytesOf]

end Memory
end ObjectBridge
