import ObjectBridge.Proofs.Anchoring
import ObjectBridge.Proofs.Courses
import ObjectBridge.Proofs.Creating
import ObjectBridge.Proofs.Vectors

/-!
# What instances remember

A property of an instance is stored under a name until it is stored there again or the instance
ends: nothing else that is requested changes it, and a later instance lies in new storage.  Cells
in reserved storage stay as they are until they are written.
-/

namespace ObjectBridge

variable {a : Address} {name : String} {span : Address → Prop}

namespace Store

variable {s s₁ s' : Store}

/-- An instance that is live later was live before, and it was of the same type and had the same
stored under a name. -/
def Remembers (a : Address) (name : String) (s s' : Store) : Prop :=
  ∀ i', s'.instances.get? a = some i' → ∃ i, s.instances.get? a = some i
    ∧ i'.number = i.number ∧ i'.properties.lookup name = i.properties.lookup name

/-- Only the table of instances matters. -/
theorem remembers_of_eq (instances : s'.instances = s.instances) : Remembers a name s s' :=
  fun i' live => ⟨i', instances ▸ live, rfl, rfl⟩

theorem Remembers.trans (first : Remembers a name s s₁) (second : Remembers a name s₁ s') :
    Remembers a name s s' := fun i'' live => by
  obtain ⟨i', live', number', lookup'⟩ := second i'' live
  obtain ⟨i, before, number, lookup⟩ := first i' live'
  exact ⟨i, before, number'.trans number, lookup'.trans lookup⟩

/-- A live instance is changed, but not in what is remembered. -/
theorem remembers_set {b : Address} {i : Instance} (i' : Instance)
    (live : s.instances.get? b = some i) (number : i'.number = i.number)
    (same : b = a → i'.properties.lookup name = i.properties.lookup name)
    (changed : s'.instances = s.instances.set b i') : Remembers a name s s' := fun j found => by
  rw [changed] at found
  rcases Table.get?_of_set found with ⟨rfl, rfl⟩ | old
  · exact ⟨i, live, number, same rfl⟩
  · exact ⟨j, old, rfl, rfl⟩

theorem remembers_claim (c : Claim) (s : Store) : Remembers a name s (s.claim c) := by
  cases c with
  | entry t | block b => exact remembers_of_eq rfl
  | handle h | closure h =>
    simp only [claim]
    split <;> exact remembers_of_eq rfl
  | reference b =>
    simp only [claim]
    split
    · next i live =>
      exact remembers_set { i with references := i.references + 1 } live rfl (fun _ => rfl) rfl
    · exact remembers_of_eq rfl

theorem remembers_claimAll (claims : List Claim) (s : Store) :
    Remembers a name s (s.claimAll claims) := by
  induction claims generalizing s with
  | nil => exact remembers_of_eq rfl
  | cons c rest ih => exact (remembers_claim c s).trans (ih (s.claim c))

theorem remembers_addConnection {b : Address} {i : Instance}
    (live : s.instances.get? b = some i) (signal : String) (reaction : Reaction) :
    Remembers a name s (s.addConnection b i signal reaction).2 := fun j found => by
  rcases Table.get?_of_set found with ⟨rfl, rfl⟩ | old
  · exact ⟨i, live, rfl, rfl⟩
  · exact remembers_claimAll reaction.claims s j old

theorem remembers_pay (c : Claim) (s : Store) : Remembers a name s (s.pay c).2 := by
  cases c with
  | entry t | block b | handle h | closure h => exact remembers_of_eq rfl
  | reference b =>
    cases live : s.instances.get? b with
    | none =>
      refine remembers_of_eq ?_
      simp only [pay, Table.countDown, live]
    | some i =>
      by_cases last : i.references ≤ 1
      · intro i' found
        simp only [pay, Table.countDown, live, if_pos last] at found
        exact ⟨i', Table.get?_of_erase found, rfl, rfl⟩
      · have counted : (s.pay (.reference b)).2.instances = s.instances.set b i.fewer := by
          simp only [pay, Table.countDown, live, if_neg last]
        exact remembers_set i.fewer live rfl (fun _ => rfl) counted

/-- Giving claims back ends instances, but changes none in what is remembered. -/
theorem remembers_release (claims : List Claim) (s : Store) :
    Remembers a name s (s.release claims).2 := by
  induction claims, s using release_induction with
  | nil s =>
    rw [release]
    exact remembers_of_eq rfl
  | cons c rest s ih =>
    rw [release_cons]
    exact (remembers_pay c s).trans ih

end Store

/-- In a later world an instance has stored what it had under a name, if it is still live, and the
cells of a span are as they were. -/
structure World.Remembers (a : Address) (name : String) (span : Address → Prop) (w w' : World) :
    Prop where
  /-- No storage is given up. -/
  next : w.memory.next ≤ w'.memory.next
  /-- At least as many cells were written. -/
  extent : w.memory.extent ≤ w'.memory.extent
  /-- The cells of the span that lie in reserved storage. -/
  cells : ∀ x < w.memory.next, span x → w'.memory.cell x = w.memory.cell x
  /-- The instance, if it lies in reserved storage. -/
  store : a < w.memory.next → w.store.Remembers a name w'.store

namespace World

variable {w w₁ w' : World}

theorem Remembers.trans (first : Remembers a name span w w₁)
    (second : Remembers a name span w₁ w') : Remembers a name span w w' where
  next := Nat.le_trans first.next second.next
  extent := Nat.le_trans first.extent second.extent
  cells x below inside :=
    (second.cells x (Nat.lt_of_lt_of_le below first.next) inside).trans (first.cells x below inside)
  store below := (first.store below).trans (second.store (Nat.lt_of_lt_of_le below first.next))

/-- A change of the store. -/
theorem remembers_withStore {s : Store} (store : w.store.Remembers a name s) :
    Remembers a name span w (w.withStore s) :=
  ⟨Nat.le_refl _, Nat.le_refl _, fun _ _ _ => rfl, fun _ => store⟩

/-- A change that leaves memory and the instances alone. -/
theorem remembers_of_eq (memory : w'.memory = w.memory)
    (instances : w'.store.instances = w.store.instances) : Remembers a name span w w' where
  next := Nat.le_of_eq (congrArg Memory.next memory.symm)
  extent := Nat.le_of_eq (congrArg Memory.extent memory.symm)
  cells _ _ _ := by rw [memory]
  store _ := Store.remembers_of_eq instances

theorem Remembers.refl (w : World) : Remembers a name span w w := remembers_of_eq rfl rfl

/-- A change of the store that leaves the instances alone. -/
theorem remembers_withStore_of_eq {s : Store} (instances : s.instances = w.store.instances) :
    Remembers a name span w (w.withStore s) :=
  remembers_withStore (Store.remembers_of_eq instances)

theorem remembers_release (claims : List Claim) (w : World) :
    Remembers a name span w (w.release claims).2 :=
  remembers_withStore (Store.remembers_release claims w.store)

theorem remembers_claimAll (claims : List Claim) (w : World) :
    Remembers a name span w (w.withStore (w.store.claimAll claims)) :=
  remembers_withStore (Store.remembers_claimAll claims w.store)

/-- New storage lies above all reserved storage. -/
theorem remembers_place (w : World) (cells : List Cell) (size : Nat) :
    Remembers a name span w (w.place cells size).2 where
  next := (w.memory.extends_place cells size).next
  extent := (w.memory.extends_place cells size).extent
  cells x below _ := (w.memory.extends_place cells size).cells x below
  store _ := Store.remembers_of_eq rfl

/-- A new instance lies in new storage. -/
theorem remembers_create (w : World) (number : TypeNumber) (floating : Bool) :
    Remembers a name span w (w.create number floating).2 := by
  have placed : Remembers a name span w (w.place [] instanceStorage).2 := remembers_place w _ _
  refine ⟨placed.next, placed.extent, placed.cells, fun below i' live => ⟨i', ?_, rfl, rfl⟩⟩
  have old : (w.create number floating).2.store.instances.get? a = w.store.instances.get? a :=
    Table.get?_insert_of_ne (Nat.ne_of_lt below)
  exact old ▸ live

/-- A live instance is changed, but not in what is remembered. -/
theorem remembers_setInstance {b : Address} {i i' : Instance}
    (live : w.store.instances.get? b = some i) (number : i'.number = i.number)
    (same : b = a → i'.properties.lookup name = i.properties.lookup name) :
    Remembers a name span w (w.setInstance b i') :=
  remembers_withStore (Store.remembers_set i' live number same rfl)

/-- What is remembered stays when something elementary changes. -/
theorem elementary_remembers : Elementary (Remembers a name span) where
  trans := Remembers.trans
  idle idle := remembers_of_eq idle.memory idle.instances
  place := remembers_place
  claimAll := remembers_claimAll
  release := remembers_release
  addHandle r w := (remembers_claimAll r.claims w).trans (remembers_withStore_of_eq rfl)
  addBlock w size := (remembers_place w [] size).trans (remembers_withStore_of_eq rfl)
  create := remembers_create
  setInstance live number properties _ :=
    remembers_setInstance live number fun _ => by rw [properties]
  addConnection live signal reaction :=
    remembers_withStore (Store.remembers_addConnection live signal reaction)

/-- Cells are written, but not in the span. -/
theorem remembers_write {b : Address} {cells : List Cell}
    (apart : ∀ x, span x → x < b ∨ b + cells.length ≤ x) (w : World) :
    Remembers a name span w { w with memory := w.memory.write b cells } where
  next := Nat.le_refl _
  extent := Nat.le_add_left _ _
  cells x _ inside := w.memory.cell_write_apart (apart x inside)
  store _ := Store.remembers_of_eq rfl

end World

/-- Whether a request stores something under a name of an instance. -/
def Request.stores (a : Address) (name : String) : Request → Bool
  | .storeProperty b n _ => b = a && n = name
  | _ => false

/-- A request that writes into a span. -/
def Request.WritesInto (span : Address → Prop) : Request → Prop
  | .write b cells => ∃ x, span x ∧ b ≤ x ∧ x < b + cells.length
  | _ => False

/-- A request that leaves what is stored under a name of an instance, and the cells of a span. -/
structure Request.Leaves (a : Address) (name : String) (span : Address → Prop) (r : Request) :
    Prop where
  /-- Nothing is stored under the name. -/
  stored : r.stores a name = false
  /-- Nothing is written into the span. -/
  written : ¬r.WritesInto span

/-- What is stored under another name, or by another instance, does not matter. -/
theorem Request.Leaves.lookup_assign {b : Address} {n : String} {slot : Slot}
    (leaves : Leaves a name span (.storeProperty b n slot)) (properties : List (String × Slot))
    (same : b = a) : (assign n slot properties).lookup name = properties.lookup name := by
  have other : (decide (b = a) && decide (n = name)) = false := leaves.stored
  rw [ObjectBridge.lookup_assign]
  refine if_neg fun equal => ?_
  rw [decide_eq_true same, decide_eq_true equal.symm] at other
  cases other

theorem Request.Leaves.apart {b : Address} {cells : List Cell}
    (leaves : Leaves a name span (.write b cells)) (x : Address) (inside : span x) :
    x < b ∨ b + cells.length ≤ x := by
  by_contra within
  rw [not_or, Nat.not_lt, Nat.not_le] at within
  exact leaves.written ⟨x, inside, within⟩

/-- The answer of the machine to a request that leaves it. -/
theorem World.remembers_answer (calls : Calls) {r : Request} (direct : r.direct = true)
    (leaves : r.Leaves a name span) (w : World) :
    Remembers a name span w (w.answer calls r).2 :=
  elementary_remembers.answer_direct calls direct w
    (fun _ i _ _ stores live =>
      remembers_setInstance live rfl ((stores ▸ leaves).lookup_assign i.properties))
    fun _ _ writes => remembers_write (writes ▸ leaves).apart w

/-- What an instance has stored under a name stays on every course on which nothing is stored there
and nothing is written into the span. -/
theorem World.Course.remembers {w w' : World} (course : w.Course (Request.Leaves a name span) w') :
    World.Remembers a name span w w' := by
  induction course with
  | refl => exact .refl w
  | answer _ calls direct leaves ih =>
    exact ih.trans (World.remembers_answer calls direct leaves _)
  | aside _ signals events ih => exact ih.trans (World.remembers_of_eq rfl rfl)

end ObjectBridge
