import ObjectBridge.Slot
import Mathlib.Data.Int.ModEq
import Mathlib.Tactic.Common

/-!
# Integers in their formats

A format keeps the low bits of an integer, and gives back the one integer of its range with those
bits.  The host has signed integers of 64 bits, so an integer of 64 bits without a sign stands as
the host integer with the same bits.
-/

namespace ObjectBridge
namespace IntegerFormat

variable {f : IntegerFormat} {i j : Int64} {n : Int} {word : Nat}

/-- A format that native code has. -/
def Native (f : IntegerFormat) : Prop := 0 < f.width ∧ f.width ≤ 64

instance : Decidable f.Native := inferInstanceAs (Decidable (_ ∧ _))

/-- The integer of a format that an integer of the host stands for: the one with the same bits where
integers of 64 bits have no sign, and else itself. -/
def meaning (f : IntegerFormat) (i : Int64) : Int :=
  if f = ⟨64, false⟩ then i.toUInt64.toNat else i.toInt

/-- Whether an integer of the host stands for an integer in the range of a format. -/
def Fits (f : IntegerFormat) (i : Int64) : Prop := f.least ≤ f.meaning i ∧ f.meaning i ≤ f.greatest

instance : Decidable (f.Fits i) := inferInstanceAs (Decidable (_ ∧ _))

/-- The integer of the host that stands for the low bits of a word. -/
def given (f : IntegerFormat) (word : Nat) : Int64 := Int64.ofInt (f.read word)

theorem count_eq : f.count = 2 ^ f.width := rfl

theorem count_pos : 0 < f.count := Nat.two_pow_pos f.width

theorem count_even (native : f.Native) : 2 * (f.count / 2) = f.count := by
  have whole : f.width = f.width - 1 + 1 := (Nat.sub_add_cancel native.1).symm
  rw [count_eq, whole, Nat.pow_succ, Nat.mul_div_cancel _ Nat.two_pos, Nat.mul_comm]

theorem count_le (native : f.Native) : f.count ≤ 2 ^ 64 :=
  Nat.pow_le_pow_right Nat.two_pos native.2

theorem count_lt (native : f.Native) (narrow : f.width ≠ 64) : 2 * f.count ≤ 2 ^ 64 := by
  have below : f.width + 1 ≤ 64 := Nat.lt_of_le_of_ne native.2 narrow
  have power := Nat.pow_le_pow_right Nat.two_pos below
  rw [Nat.pow_succ, ← count_eq] at power
  omega

/-- What is read from a word lies in the range of the format. -/
theorem read_within (native : f.Native) (word : Nat) :
    f.least ≤ f.read word ∧ f.read word ≤ f.greatest := by
  have even := count_even native
  have positive : 0 < f.count := count_pos
  have low := Nat.mod_lt word positive
  simp only [read, least, greatest]
  cases f.signed with
  | false => simp only [Bool.false_eq_true, if_false]; omega
  | true =>
    have above := Int.le_bmod (x := (word % f.count : Nat)) positive
    have below := Int.bmod_lt (x := (word % f.count : Nat)) positive
    simp only [if_true]
    omega

theorem read_modEq (f : IntegerFormat) (word : Nat) : f.read word ≡ word [ZMOD f.count] := by
  have low : ((word % f.count : Nat) : Int) ≡ word [ZMOD f.count] := by
    rw [Int.natCast_mod]
    exact Int.mod_modEq _ _
  simp only [read]
  split
  · exact Int.bmod_emod.trans low
  · exact low

/-- The range of a format holds one integer with given low bits. -/
theorem eq_of_modEq (native : f.Native) {m : Int} (left : f.least ≤ m ∧ m ≤ f.greatest)
    (right : f.least ≤ n ∧ n ≤ f.greatest) (same : m ≡ n [ZMOD f.count]) : m = n := by
  have even := count_even native
  have positive : 0 < f.count := count_pos
  have close : |n - m| < f.count := by
    rw [abs_lt]
    simp only [least, greatest] at left right
    cases signed : f.signed with
    | false => simp only [signed, Bool.false_eq_true, if_false] at left right; omega
    | true => simp only [signed, if_true] at left right; omega
  have none_between := Int.eq_zero_of_abs_lt_dvd same.dvd close
  omega

theorem wrap_eq (f : IntegerFormat) (n : Int) : (f.wrap n : Int) = n % f.count := by
  rw [wrap]
  apply Int.toNat_of_nonneg
  apply Int.emod_nonneg
  exact Int.natCast_ne_zero.mpr (Nat.ne_of_gt count_pos)

theorem wrap_modEq (f : IntegerFormat) (n : Int) : f.wrap n ≡ n [ZMOD f.count] := by
  rw [wrap_eq]
  exact Int.mod_modEq _ _

theorem wrap_of_modEq (same : n ≡ word [ZMOD f.count]) : f.wrap n = word % f.count := by
  apply Int.natCast_inj.mp
  rw [wrap_eq, Int.natCast_mod]
  exact same

theorem meaning_inj (same : f.meaning i = f.meaning j) : i = j := by
  rw [meaning, meaning] at same
  split at same
  · have bits := UInt64.toNat_inj.mp (Int.natCast_inj.mp same)
    exact Int64.toBitVec.inj (congrArg UInt64.toBitVec bits)
  · exact Int64.toInt_inj.mp same

theorem meaning_modEq (f : IntegerFormat) (i : Int64) : f.meaning i ≡ i.toInt [ZMOD f.count] := by
  rw [meaning]
  split
  · next unsigned =>
    have bits : i.toInt = Int.bmod i.toUInt64.toNat (2 ^ 64) :=
      BitVec.toInt_eq_toNat_bmod i.toBitVec
    rw [bits, unsigned]
    exact Int.bmod_emod.symm
  · rfl

/-- Only without a sign do integers of 64 bits leave the range of the host. -/
theorem range_le (native : f.Native) (other : f ≠ ⟨64, false⟩) :
    -2 ^ 63 ≤ f.least ∧ f.greatest < 2 ^ 63 := by
  obtain ⟨width, signed⟩ := f
  cases signed with
  | true =>
    have limit := count_le native
    simp only [least, greatest, if_true]
    omega
  | false =>
    have narrow : width ≠ 64 := fun same => other (same ▸ rfl)
    have limit := count_lt native narrow
    simp only [least, greatest, Bool.false_eq_true, if_false]
    omega

/-- The host integer for a word stands for what the format reads from it. -/
theorem meaning_given (native : f.Native) (word : Nat) : f.meaning (f.given word) = f.read word := by
  have within := read_within native word
  rw [meaning]
  split
  · next unsigned =>
    have bits : (f.given word).toUInt64.toNat = (f.read word % (2 ^ 64 : Nat)).toNat :=
      BitVec.toNat_ofInt (f.read word)
    rw [bits]
    subst unsigned
    simp only [least, greatest, count_eq, Bool.false_eq_true, if_false] at within
    omega
  · next other =>
    have range := range_le native other
    exact Int64.toInt_ofInt_of_le (by omega) (by omega)

theorem given_fits (native : f.Native) (word : Nat) : f.Fits (f.given word) := by
  rw [Fits, meaning_given native]
  exact read_within native word

/-- The host integer for the low bits of an integer is the only one in range that agrees with it in
them. -/
theorem given_unique (native : f.Native) :
    (f.Fits j ∧ f.meaning j ≡ n [ZMOD f.count]) ↔ j = f.given (f.wrap n) := by
  have low := (read_modEq f (f.wrap n)).trans (wrap_modEq f n)
  constructor
  · rintro ⟨fits, same⟩
    apply meaning_inj (f := f)
    rw [meaning_given native]
    exact eq_of_modEq native fits (read_within native _) (same.trans low.symm)
  · rintro rfl
    refine ⟨given_fits native _, ?_⟩
    rw [meaning_given native]
    exact low

/-- An integer comes back as itself exactly if it is in range. -/
theorem given_wrap_eq_iff (native : f.Native) : f.given (f.wrap i.toInt) = i ↔ f.Fits i := by
  constructor
  · intro same
    rw [← same]
    exact given_fits native _
  · intro fits
    exact ((given_unique native).mp ⟨fits, meaning_modEq f i⟩).symm

/-- The low bits of a word come back as they were. -/
theorem wrap_given (native : f.Native) (word : Nat) :
    f.wrap (f.given word).toInt = word % f.count := by
  apply wrap_of_modEq
  apply (meaning_modEq f (f.given word)).symm.trans
  rw [meaning_given native]
  exact read_modEq f word

end IntegerFormat

/-- The integer formats of tags are those of native code. -/
theorem Tag.native_of_integer {tag : Tag} {f : IntegerFormat} (found : tag.integer? = some f) :
    f.Native := by
  cases tag <;> cases found <;> decide

end ObjectBridge
