import ObjectBridge.Proofs.Copying
import ObjectBridge.Proofs.Elements

/-!
# Vectors of native strings

A vector of native strings is the addresses of the strings, one after the other, and the null
address behind them.  An address that was stored is read back whole, so a vector of strings that are
still held is read as their texts, up to the null address or to a given number of them.
-/

namespace ObjectBridge
namespace Memory

variable {m m' : Memory} {a s : Address} {cells more : List Cell} {bytes : List UInt8}

/-- Some cells lie one after the other from an address on. -/
def Lies (m : Memory) (a : Address) (cells : List Cell) : Prop :=
  ∀ i (within : i < cells.length), m.cell (a + i) = cells[i]

theorem lies_append :
    m.Lies a (cells ++ more) ↔ m.Lies a cells ∧ m.Lies (a + cells.length) more := by
  constructor
  · intro lies
    constructor
    · intro i within
      have here := lies i (by rw [List.length_append]; omega)
      rwa [List.getElem_append_left within] at here
    · intro i within
      have here := lies (cells.length + i) (by rw [List.length_append]; omega)
      rw [List.getElem_append_right (Nat.le_add_right _ _)] at here
      simpa only [Nat.add_sub_cancel_left, Nat.add_assoc] using here
  · rintro ⟨first, second⟩ i within
    by_cases early : i < cells.length
    · rw [List.getElem_append_left early]
      exact first i early
    · have late : cells.length ≤ i := Nat.not_lt.mp early
      have inside : i - cells.length < more.length := by rw [List.length_append] at within; omega
      rw [List.getElem_append_right late, ← second (i - cells.length) inside, Nat.add_assoc,
        Nat.add_sub_cancel' late]

theorem cell_write (m : Memory) (a : Address) (cells : List Cell) (b : Address) :
    (m.write a cells).cell b = ((Write.mk a cells).cell? b).getD (m.cell b) := by
  rw [cell, cell, write, List.findSome?_cons]
  cases (Write.mk a cells).cell? b <;> rfl

theorem lies_write (m : Memory) (a : Address) (cells : List Cell) :
    (m.write a cells).Lies a cells := by
  intro i within
  rw [cell_write, Write.cell?, if_pos (Nat.le_add_right a i), Nat.add_sub_cancel_left,
    List.getElem?_eq_getElem within, Option.getD_some]

theorem lies_place (m : Memory) (cells : List Cell) (size : Nat) :
    (m.place cells size).2.Lies m.next cells :=
  lies_write _ m.next cells

/-- Writing leaves the cells before and behind what is written as they are. -/
theorem cell_write_apart (m : Memory) {b : Address} (apart : b < a ∨ a + cells.length ≤ b) :
    (m.write a cells).cell b = m.cell b := by
  rw [cell_write, Write.cell?]
  split
  · next above =>
    have behind : a + cells.length ≤ b := apart.resolve_left (Nat.not_lt.mpr above)
    have beyond : cells.length ≤ b - a := Nat.le_sub_of_add_le' behind
    rw [List.getElem?_eq_none beyond, Option.getD_none]
  · rfl

/-- An address is read from eight cells. -/
theorem readAddress_congr (same : ∀ i < 8, m'.cell (a + i) = m.cell (a + i)) :
    m'.readAddress a = m.readAddress a := by
  have first : m'.cell a = m.cell a := same 0 (by decide)
  have bytes : m'.read a 8 = m.read a 8 := List.map_congr_left fun i member => by
    rw [byte, byte, same i (List.mem_range.mp member)]
  have parts (s : Address) : ((List.range 8).all fun i => m'.cell (a + i) = .part s i)
      = (List.range 8).all fun i => m.cell (a + i) = .part s i := by
    rw [Bool.eq_iff_iff, List.all_eq_true, List.all_eq_true]
    exact forall₂_congr fun i member => by rw [same i (List.mem_range.mp member)]
  rw [readAddress, readAddress, storedAddress?, storedAddress?, first, readWord, readWord, bytes]
  simp only [parts]

theorem Lies.read (lies : m.Lies a (Cell.ofBytes bytes)) : m.read a bytes.length = bytes := by
  apply List.ext_getElem
  · rw [length_read]
  · intro i _ within
    have inside : i < (Cell.ofBytes bytes).length := by rwa [Cell.length_ofBytes]
    simp only [Memory.read, List.getElem_map, List.getElem_range, byte]
    rw [lies i inside]
    simp only [Cell.ofBytes, List.getElem_map, Cell.value]

end Memory

theorem Cell.length_ofAddress (s : Address) : (ofAddress s).length = 8 := by
  rw [ofAddress]
  split
  · rw [ofNumber, length_ofBytes, length_bytesOf]
  · rw [List.length_map, List.length_range]

namespace Memory

variable {m : Memory} {a s : Address} {cells : List Cell}

/-- An address that is stored somewhere is read there. -/
theorem Lies.readAddress (lies : m.Lies a (Cell.ofAddress s)) : m.readAddress a = s := by
  have eight := Cell.length_ofAddress s
  have head := lies 0 (by omega)
  rw [Nat.add_zero] at head
  by_cases small : s < UInt64.size
  · have number : Cell.ofAddress s = Cell.ofBytes (Cell.bytesOf 8 s) := if_pos small
    have none : m.storedAddress? a = none := by
      rw [storedAddress?, head]
      simp only [number, Cell.ofBytes, List.getElem_map]
    rw [number] at lies
    have read := lies.read
    rw [Cell.length_bytesOf] at read
    rw [Memory.readAddress, none, Option.getD_none, readWord, read, wordOf_bytesOf,
      Nat.mod_eq_of_lt (by exact small)]
  · have parts : Cell.ofAddress s = (List.range 8).map (Cell.part s) := if_neg small
    have each (i : Nat) (within : i < 8) : m.cell (a + i) = .part s i := by
      have here := lies i (by omega)
      simpa only [parts, List.getElem_map, List.getElem_range] using here
    have all : (List.range 8).all (fun i => m.cell (a + i) = .part s i) = true := by
      rw [List.all_eq_true]
      exact fun i member => decide_eq_true (each i (List.mem_range.mp member))
    have first : m.cell a = .part s 0 := each 0 (by decide)
    rw [Memory.readAddress, storedAddress?, first]
    simp only [all, if_true, Option.getD_some]

/-- Addresses lie one after the other from an address on, and behind them the null address. -/
def Vector (m : Memory) : Address → List Address → Prop
  | a, [] => m.readAddress a = 0
  | a, s :: rest => m.readAddress a = s ∧ m.Vector (a + 8) rest

theorem vector_of_lies {addresses : List Address}
    (lies : m.Lies a (addresses.flatMap Cell.ofAddress ++ Cell.ofAddress 0)) :
    m.Vector a addresses := by
  induction addresses generalizing a with
  | nil => exact lies.readAddress
  | cons s rest ih =>
    rw [List.flatMap_cons, List.append_assoc, lies_append, Cell.length_ofAddress] at lies
    exact ⟨lies.1.readAddress, ih lies.2⟩

/-- A vector of strings is read up to its end, or up to a limit. -/
theorem texts_of_vector {pieces : List (Address × Nat)} {texts : List String}
    (vector : m.Vector a (pieces.map Prod.fst))
    (held : List.Forall₂ (fun piece text => 0 < piece.1 ∧ m.Holds piece.1 (Text.encode text))
      pieces texts) (limit : Nat) : m.texts a limit = texts.take limit := by
  induction limit generalizing a pieces texts with
  | zero => rw [Memory.texts, List.take_zero]
  | succ limit ih =>
    cases held with
    | nil =>
      rw [List.map_nil, Vector] at vector
      rw [Memory.texts, vector, if_pos rfl, List.take_nil]
    | cons first rest =>
      rw [List.map_cons, Vector] at vector
      rw [Memory.texts, vector.1, if_neg (Nat.ne_of_gt first.1), first.2.text, ih vector.2 rest,
        List.take_succ_cons]

end Memory
end ObjectBridge
