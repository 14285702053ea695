/-!
# Tallies

A tally counts, for each number, how often it was taken less how often it was given back.  Numbers
whose count is zero are not kept, so giving back what was just taken restores the tally itself.
-/

namespace ObjectBridge

namespace Tally

/-- The count of a number in a list of counts. -/
def count (key : Nat) : List (Nat × Int) → Int
  | [] => 0
  | (k, n) :: rest => if k = key then n else count key rest

/-- Change the count of a number in a list of counts. -/
def change (key : Nat) (amount : Int) : List (Nat × Int) → List (Nat × Int)
  | [] => if amount = 0 then [] else [(key, amount)]
  | (k, n) :: rest =>
    if k = key then (if n + amount = 0 then rest else (k, n + amount) :: rest)
    else (k, n) :: change key amount rest

/-- The sum of a list of counts. -/
def sum : List (Nat × Int) → Int
  | [] => 0
  | (_, n) :: rest => n + sum rest

/-- A change counts no number that was not counted before, except the one that it is about. -/
theorem mem_keys_change {key k : Nat} {d : Int} {counts : List (Nat × Int)}
    (member : k ∈ (change key d counts).map Prod.fst) :
    k = key ∨ k ∈ counts.map Prod.fst := by
  induction counts with
  | nil =>
    by_cases none : d = 0
    · simp [change, none] at member
    · simpa [change, none] using member
  | cons row rest ih =>
    obtain ⟨j, n⟩ := row
    by_cases same : j = key
    · by_cases gone : n + d = 0
      · simp only [change, same, gone, if_true] at member
        exact .inr (List.mem_cons_of_mem _ member)
      · simp only [change, same, gone, if_true, if_false, List.map_cons, List.mem_cons] at member
        simp only [List.map_cons, List.mem_cons]
        exact member.imp_right .inr
    · simp only [change, same, if_false, List.map_cons, List.mem_cons] at member ⊢
      rcases member with first | later
      · exact .inr (.inl first)
      · exact (ih later).imp_right .inr

theorem nodup_keys_change {key : Nat} {d : Int} {counts : List (Nat × Int)}
    (distinct : (counts.map Prod.fst).Nodup) : ((change key d counts).map Prod.fst).Nodup := by
  induction counts with
  | nil => by_cases none : d = 0 <;> simp [change, none]
  | cons row rest ih =>
    obtain ⟨j, n⟩ := row
    simp only [List.map_cons, List.nodup_cons] at distinct
    by_cases same : j = key
    · by_cases gone : n + d = 0
      · simpa [change, same, gone] using distinct.2
      · simpa only [change, same, gone, if_true, if_false, List.map_cons, List.nodup_cons]
          using same ▸ distinct
    · simp only [change, same, if_false, List.map_cons, List.nodup_cons]
      refine ⟨fun member => ?_, ih distinct.2⟩
      rcases mem_keys_change member with equal | known
      · exact same equal
      · exact distinct.1 known

end Tally

/-- Counts of numbers, without those whose count is zero. -/
structure Tally where
  /-- The numbers and their counts, in the order in which they were first counted. -/
  counts : List (Nat × Int) := []
  /-- No number is counted in two places. -/
  distinct : (counts.map Prod.fst).Nodup := by exact List.nodup_nil
  deriving DecidableEq, Repr

namespace Tally

instance : Inhabited Tally := ⟨{}⟩

/-- The count of a number. -/
def get (t : Tally) (key : Nat) : Int := count key t.counts

/-- Count a number once more. -/
def take (t : Tally) (key : Nat) : Tally :=
  ⟨change key 1 t.counts, nodup_keys_change t.distinct⟩

/-- Count a number once less. -/
def giveBack (t : Tally) (key : Nat) : Tally :=
  ⟨change key (-1) t.counts, nodup_keys_change t.distinct⟩

/-- The sum of all counts. -/
def total (t : Tally) : Int := sum t.counts

theorem sum_change (key : Nat) (d : Int) (counts : List (Nat × Int)) :
    sum (change key d counts) = sum counts + d := by
  induction counts with
  | nil => by_cases h : d = 0 <;> simp [change, sum, h]
  | cons row rest ih =>
    obtain ⟨k, n⟩ := row
    by_cases same : k = key
    · by_cases gone : n + d = 0 <;> simp [change, sum, same, gone] <;> omega
    · simp [change, sum, same, ih]
      omega

theorem count_eq_zero {key : Nat} {counts : List (Nat × Int)}
    (absent : key ∉ counts.map Prod.fst) : count key counts = 0 := by
  induction counts with
  | nil => rfl
  | cons row rest ih =>
    obtain ⟨k, n⟩ := row
    simp only [List.map_cons, List.mem_cons, not_or] at absent
    simp [count, Ne.symm absent.1, ih absent.2]

theorem count_change (key k : Nat) (d : Int) {counts : List (Nat × Int)}
    (distinct : (counts.map Prod.fst).Nodup) :
    count k (change key d counts) = count k counts + if k = key then d else 0 := by
  induction counts with
  | nil =>
    by_cases same : k = key
    · by_cases none : d = 0 <;> simp [change, count, same, none]
    · by_cases none : d = 0 <;> simp [change, count, same, none, Ne.symm same]
  | cons row rest ih =>
    obtain ⟨j, n⟩ := row
    simp only [List.map_cons, List.nodup_cons] at distinct
    by_cases same : j = key
    · subst same
      by_cases wanted : k = j
      · subst wanted
        by_cases gone : n + d = 0
        · simp [change, count, gone, count_eq_zero distinct.1]
        · simp [change, count, gone]
      · by_cases gone : n + d = 0 <;> simp [change, count, gone, wanted, Ne.symm wanted]
    · by_cases wanted : j = k
      · simp [change, count, wanted, wanted ▸ same]
      · simp [change, count, same, wanted, ih distinct.2]

/-- Taking once more adds one to the sum. -/
@[simp]
theorem total_take (t : Tally) (key : Nat) : (t.take key).total = t.total + 1 :=
  sum_change key 1 t.counts

/-- Giving back once takes one from the sum. -/
@[simp]
theorem total_giveBack (t : Tally) (key : Nat) : (t.giveBack key).total = t.total - 1 :=
  sum_change key (-1) t.counts

theorem get_take (t : Tally) (key k : Nat) :
    (t.take key).get k = t.get k + if k = key then 1 else 0 :=
  count_change key k 1 t.distinct

theorem get_giveBack (t : Tally) (key k : Nat) :
    (t.giveBack key).get k = t.get k - if k = key then 1 else 0 := by
  have changed := count_change key k (-1) t.distinct
  simp only [get, giveBack, changed]
  split <;> omega

@[simp]
theorem get_empty (k : Nat) : ({} : Tally).get k = 0 := rfl

@[simp]
theorem total_empty : ({} : Tally).total = 0 := rfl

end Tally

end ObjectBridge
