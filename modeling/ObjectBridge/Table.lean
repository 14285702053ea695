/-!
# Numbered tables

A table is a list of rows, each with a number of its own.  The weight of a table is the sum of the
weights of its rows, and every operation changes it by the weight of the row it touches.
-/

namespace ObjectBridge

namespace Table

variable {α : Type}

/-- The row of a number. -/
def find (key : Nat) : List (Nat × α) → Option α
  | [] => none
  | (k, x) :: rest => if k = key then some x else find key rest

/-- Replace the row of a number. -/
def replace (key : Nat) (x : α) : List (Nat × α) → List (Nat × α)
  | [] => []
  | (k, y) :: rest => if k = key then (k, x) :: rest else (k, y) :: replace key x rest

/-- Take the row of a number away. -/
def discard (key : Nat) : List (Nat × α) → List (Nat × α)
  | [] => []
  | (k, y) :: rest => if k = key then rest else (k, y) :: discard key rest

theorem keys_replace (key : Nat) (x : α) (rows : List (Nat × α)) :
    (replace key x rows).map Prod.fst = rows.map Prod.fst := by
  induction rows with
  | nil => rfl
  | cons row rest ih =>
    obtain ⟨k, y⟩ := row
    by_cases same : k = key <;> simp [replace, same, ih]

theorem discard_sublist (key : Nat) (rows : List (Nat × α)) :
    (discard key rows).Sublist rows := by
  induction rows with
  | nil => exact .slnil
  | cons row rest ih =>
    obtain ⟨k, y⟩ := row
    by_cases same : k = key
    · simp only [discard, same, if_true]
      exact List.sublist_cons_self _ _
    · simp only [discard, same, if_false]
      exact ih.cons_cons _

end Table

/-- A table of rows with numbers. -/
structure Table (α : Type) where
  /-- The rows, in the order in which they were added. -/
  rows : List (Nat × α) := []
  /-- No number has two rows. -/
  distinct : (rows.map Prod.fst).Nodup := by exact List.nodup_nil
  deriving DecidableEq, Repr

namespace Table

variable {α : Type}

instance : Inhabited (Table α) := ⟨{}⟩

/-- The entry of a number. -/
def get? (t : Table α) (key : Nat) : Option α := find key t.rows

/-- Whether a number has an entry. -/
def contains (t : Table α) (key : Nat) : Bool := (t.get? key).isSome

/-- Change an entry; a number without one stays without. -/
def set (t : Table α) (key : Nat) (x : α) : Table α :=
  ⟨replace key x t.rows, keys_replace key x t.rows ▸ t.distinct⟩

/-- Add an entry, or change the one that the number has. -/
def insert (t : Table α) (key : Nat) (x : α) : Table α :=
  if known : key ∈ t.rows.map Prod.fst then t.set key x
  else
    { rows := t.rows ++ [(key, x)]
      distinct := by
        rw [List.map_append, List.nodup_append]
        refine ⟨t.distinct, by simp, fun k member j single => ?_⟩
        simp only [List.map_cons, List.map_nil, List.mem_singleton] at single
        exact fun equal => known (single ▸ equal ▸ member) }

/-- Take an entry away. -/
def erase (t : Table α) (key : Nat) : Table α :=
  ⟨discard key t.rows, ((discard_sublist key t.rows).map Prod.fst).nodup t.distinct⟩

/-- The number of entries. -/
def size (t : Table α) : Nat := t.rows.length

/-- The sum of the weights of some rows. -/
def weigh (weight : α → Nat) : List (Nat × α) → Nat
  | [] => 0
  | (_, x) :: rest => weight x + weigh weight rest

/-- The sum of the weights of all entries. -/
def weight (f : α → Nat) (t : Table α) : Nat := weigh f t.rows

theorem find_eq_none_iff (key : Nat) (rows : List (Nat × α)) :
    find key rows = none ↔ key ∉ rows.map Prod.fst := by
  induction rows with
  | nil => simp [find]
  | cons row rest ih =>
    obtain ⟨k, y⟩ := row
    by_cases same : k = key
    · simp [find, same]
    · simp only [find, same, if_false, ih, List.map_cons, List.mem_cons, not_or]
      exact ⟨fun absent => ⟨Ne.symm same, absent⟩, fun both => both.2⟩

theorem find_append (key k : Nat) (x : α) (rows : List (Nat × α)) :
    find k (rows ++ [(key, x)]) = (find k rows).or (if key = k then some x else none) := by
  induction rows with
  | nil => simp [find]
  | cons row rest ih =>
    obtain ⟨j, y⟩ := row
    by_cases same : j = k <;> simp [find, same, ih]

theorem find_replace (key k : Nat) (x : α) (rows : List (Nat × α)) :
    find k (replace key x rows) = if k = key then (find k rows).map fun _ => x else find k rows := by
  induction rows with
  | nil => simp [replace, find]
  | cons row rest ih =>
    obtain ⟨j, y⟩ := row
    by_cases here : j = key
    · subst here
      by_cases wanted : j = k
      · simp [replace, find, wanted]
      · simp [replace, find, wanted, Ne.symm wanted]
    · by_cases wanted : j = k
      · simp [replace, find, wanted, wanted ▸ here]
      · simp [replace, find, here, wanted, ih]

theorem find_discard (key k : Nat) {rows : List (Nat × α)}
    (distinct : (rows.map Prod.fst).Nodup) :
    find k (discard key rows) = if k = key then none else find k rows := by
  induction rows with
  | nil => simp [discard, find]
  | cons row rest ih =>
    obtain ⟨j, y⟩ := row
    simp only [List.map_cons, List.nodup_cons] at distinct
    by_cases here : j = key
    · subst here
      by_cases wanted : k = j
      · simp [discard, wanted, (find_eq_none_iff j rest).mpr distinct.1]
      · simp [discard, find, wanted, Ne.symm wanted]
    · by_cases wanted : j = k
      · simp [discard, find, wanted, wanted ▸ here]
      · simp [discard, find, here, wanted, ih distinct.2]

theorem weigh_append (f : α → Nat) (left right : List (Nat × α)) :
    weigh f (left ++ right) = weigh f left + weigh f right := by
  induction left with
  | nil => simp [weigh]
  | cons row rest ih =>
    simp only [List.cons_append, weigh, ih]
    omega

theorem weigh_discard (f : α → Nat) (key : Nat) (rows : List (Nat × α)) (x : α)
    (found : find key rows = some x) :
    weigh f (discard key rows) + f x = weigh f rows := by
  induction rows with
  | nil => simp [find] at found
  | cons row rest ih =>
    obtain ⟨k, y⟩ := row
    by_cases same : k = key
    · simp [find, same] at found
      simp [discard, weigh, same, found]
      omega
    · simp [find, same] at found
      have := ih found
      simp [discard, weigh, same]
      omega

theorem weigh_replace (f : α → Nat) (key : Nat) (rows : List (Nat × α)) (x y : α)
    (found : find key rows = some x) :
    weigh f (replace key y rows) + f x = weigh f rows + f y := by
  induction rows with
  | nil => simp [find] at found
  | cons row rest ih =>
    obtain ⟨k, z⟩ := row
    by_cases same : k = key
    · simp [find, same] at found
      simp [replace, weigh, same, found]
      omega
    · simp [find, same] at found
      have := ih found
      simp [replace, weigh, same]
      omega

/-- Taking an entry away takes its weight away. -/
theorem weight_erase (f : α → Nat) (t : Table α) (key : Nat) (x : α)
    (found : t.get? key = some x) : (t.erase key).weight f + f x = t.weight f :=
  weigh_discard f key t.rows x found

/-- Changing an entry exchanges its weight. -/
theorem weight_set (f : α → Nat) (t : Table α) (key : Nat) (x y : α)
    (found : t.get? key = some x) : (t.set key y).weight f + f x = t.weight f + f y :=
  weigh_replace f key t.rows x y found

@[simp]
theorem get?_empty (key : Nat) : ({} : Table α).get? key = none := rfl

theorem get?_set (t : Table α) (key k : Nat) (x : α) :
    (t.set key x).get? k = if k = key then (t.get? k).map fun _ => x else t.get? k :=
  find_replace key k x t.rows

theorem get?_erase (t : Table α) (key k : Nat) :
    (t.erase key).get? k = if k = key then none else t.get? k :=
  find_discard key k t.distinct

/-- What is left after an entry was taken away was there before. -/
theorem get?_of_erase {t : Table α} {key k : Nat} {x : α} (found : (t.erase key).get? k = some x) :
    t.get? k = some x := by
  rw [get?_erase] at found
  split at found
  · contradiction
  · exact found

/-- After a change an entry is the new one, or it was there before. -/
theorem get?_of_set {t : Table α} {key k : Nat} {x y : α} (found : (t.set key y).get? k = some x) :
    (k = key ∧ x = y) ∨ t.get? k = some x := by
  rw [get?_set] at found
  split at found
  · next same =>
    obtain ⟨_, _, equal⟩ := Option.map_eq_some_iff.mp found
    exact .inl ⟨same, equal.symm⟩
  · exact .inr found

@[simp]
theorem contains_set (t : Table α) (key k : Nat) (x : α) :
    (t.set key x).contains k = t.contains k := by
  simp only [contains, get?_set]
  split <;> simp

theorem insert_of_absent (t : Table α) {key : Nat} (absent : t.get? key = none) (x : α) :
    (t.insert key x).rows = t.rows ++ [(key, x)] := by
  have unknown := (find_eq_none_iff key t.rows).mp absent
  rw [insert, dif_neg unknown]

theorem get?_insert (t : Table α) {key : Nat} (absent : t.get? key = none) (k : Nat) (x : α) :
    (t.insert key x).get? k = if k = key then some x else t.get? k := by
  rw [get?, insert_of_absent t absent, find_append]
  by_cases same : k = key
  · subst same
    simp [get?] at absent
    simp [absent]
  · simp [get?, same, Ne.symm same]

/-- After an addition an entry is the new one, or it was there before. -/
theorem get?_of_insert {t : Table α} {key k : Nat} {x y : α} (absent : t.get? key = none)
    (found : (t.insert key y).get? k = some x) : (k = key ∧ x = y) ∨ t.get? k = some x := by
  rw [get?_insert t absent] at found
  split at found
  · next same => exact .inl ⟨same, (Option.some.inj found).symm⟩
  · exact .inr found

/-- Adding an entry adds its weight. -/
theorem weight_insert (f : α → Nat) (t : Table α) {key : Nat} (absent : t.get? key = none)
    (x : α) : (t.insert key x).weight f = t.weight f + f x := by
  rw [weight, insert_of_absent t absent, weigh_append]
  simp [weigh, weight]

theorem size_insert (t : Table α) {key : Nat} (absent : t.get? key = none) (x : α) :
    (t.insert key x).size = t.size + 1 := by
  rw [size, insert_of_absent t absent]
  simp [size]

@[simp]
theorem size_set (t : Table α) (key : Nat) (x : α) : (t.set key x).size = t.size := by
  have keys := congrArg List.length (keys_replace key x t.rows)
  simp only [List.length_map] at keys
  exact keys

theorem size_eq_weight (t : Table α) : t.size = t.weight fun _ => 1 := by
  rw [size, weight]
  induction t.rows with
  | nil => rfl
  | cons row rest ih => simp [weigh, ih, Nat.add_comm]

theorem size_erase (t : Table α) {key : Nat} {x : α} (found : t.get? key = some x) :
    (t.erase key).size + 1 = t.size := by
  simpa [size_eq_weight] using weight_erase (fun _ => 1) t key x found

end Table

end ObjectBridge
