import ObjectBridge.Proofs.Lasting

/-!
# What stays in its place

A handle stands for one thing as long as there is a record of it: nothing that a session does
attaches a handle elsewhere, and no number of a handle is given out again.  Instances stay where
they are too: what is live later was live before, or it lives in storage that was reserved since.
-/

namespace ObjectBridge

namespace Store

variable {s s₁ s₂ s' : Store} {z : HandleId}

/-- Handles with numbers below a given one stand for what they stood for, and nothing is live that
was not. -/
structure Anchors (z : HandleId) (s s' : Store) : Prop where
  /-- The handles that there are were there, attached as they are. -/
  handles : ∀ h < z, ∀ r', s'.handles.get? h = some r' →
    ∃ r, s.handles.get? h = some r ∧ r'.attachment = r.attachment
  /-- The instances that there are were there. -/
  instances : ∀ a, s'.isLive a = true → s.isLive a = true

/-- Only the tables of handles and instances matter. -/
theorem anchors_of_eq (handles : s'.handles = s.handles) (instances : s'.instances = s.instances) :
    Anchors z s s' :=
  ⟨fun _ _ r' live => ⟨r', handles ▸ live, rfl⟩, fun _ live => by rwa [isLive, ← instances]⟩

theorem Shrunk.anchors (shrunk : s.Shrunk s') : Anchors z s s' where
  handles h _ r' live := by
    obtain ⟨r, before, attachment, _⟩ := shrunk.handles h r' live
    exact ⟨r, before, attachment⟩
  instances a live := by
    obtain ⟨i', found⟩ := Option.isSome_iff_exists.mp live
    obtain ⟨i, before, _⟩ := shrunk.instances a i' found
    exact Option.isSome_iff_exists.mpr ⟨i, before⟩

theorem Anchors.trans (first : Anchors z s s₁) (second : Anchors z s₁ s₂) : Anchors z s s₂ where
  handles h below r'' live := by
    obtain ⟨r', live', attachment'⟩ := second.handles h below r'' live
    obtain ⟨r, before, attachment⟩ := first.handles h below r' live'
    exact ⟨r, before, attachment'.trans attachment⟩
  instances a live := first.instances a (second.instances a live)

/-- A live instance is changed where it is. -/
theorem anchors_setInstance (a : Address) (i : Instance) (s : Store) :
    Anchors z s (s.setInstance a i) :=
  ⟨fun _ _ r' live => ⟨r', live, rfl⟩,
    fun b live => (Table.contains_set s.instances a b i).symm.trans live⟩

theorem anchors_claim (c : Claim) (s : Store) : Anchors z s (s.claim c) := by
  cases c with
  | entry t | block a => exact anchors_of_eq rfl rfl
  | reference a =>
    simp only [claim]
    split
    · exact anchors_setInstance a _ s
    · exact anchors_of_eq rfl rfl
  | closure c =>
    simp only [claim]
    split <;> exact anchors_of_eq rfl rfl
  | handle h =>
    simp only [claim]
    split
    · next r live =>
      refine ⟨fun k _ r' found => ?_, fun _ live => live⟩
      rcases Table.get?_of_set found with ⟨rfl, rfl⟩ | old
      · exact ⟨r, live, rfl⟩
      · exact ⟨r', old, rfl⟩
    · exact anchors_of_eq rfl rfl

theorem anchors_claimAll (claims : List Claim) (s : Store) : Anchors z s (s.claimAll claims) := by
  induction claims generalizing s with
  | nil => exact anchors_of_eq rfl rfl
  | cons c rest ih => exact (anchors_claim c s).trans (ih (s.claim c))

/-- A new handle gets a new number. -/
theorem anchors_addHandle (r : HandleRecord) (s : Store) :
    Anchors s.nextHandle s (s.addHandle r).2 where
  handles h below r' found := by
    simp only [addHandle, Table.get?_insert_of_ne (Nat.ne_of_lt below)] at found
    exact (anchors_claimAll r.claims s).handles h below r' found
  instances a live := (anchors_claimAll (z := s.nextHandle) r.claims s).instances a live

end Store

/-- Handles stand for what they stood for, and instances live where they lived or in new storage;
neither numbers of handles nor storage are given out again. -/
structure World.Anchors (w w' : World) : Prop where
  /-- Numbers of handles only grow. -/
  number : w.store.nextHandle ≤ w'.store.nextHandle
  /-- No storage is given up. -/
  next : w.memory.next ≤ w'.memory.next
  /-- The handles that there were stand for what they stood for. -/
  handles : ∀ h < w.store.nextHandle, ∀ r', w'.store.handles.get? h = some r' →
    ∃ r, w.store.handles.get? h = some r ∧ r'.attachment = r.attachment
  /-- The instances that there are were there, or they live in new storage. -/
  instances : ∀ a, w'.store.isLive a = true →
    w.store.isLive a = true ∨ (w.memory.next ≤ a ∧ a < w'.memory.next)

namespace World

variable {w w₁ w₂ w' : World} {a : Address}

theorem Anchors.trans (first : w.Anchors w₁) (second : w₁.Anchors w₂) : w.Anchors w₂ where
  number := Nat.le_trans first.number second.number
  next := Nat.le_trans first.next second.next
  handles h below r'' live := by
    obtain ⟨r', live', attachment'⟩ :=
      second.handles h (Nat.lt_of_lt_of_le below first.number) r'' live
    obtain ⟨r, before, attachment⟩ := first.handles h below r' live'
    exact ⟨r, before, attachment'.trans attachment⟩
  instances a live := by
    rcases second.instances a live with live' | ⟨above, below⟩
    · exact (first.instances a live').imp_right fun ⟨above, below⟩ =>
        ⟨above, Nat.lt_of_lt_of_le below second.next⟩
    · exact .inr ⟨Nat.le_trans first.next above, below⟩

/-- A change of the store that makes no instance. -/
theorem anchors_withStore {s : Store} (number : w.store.nextHandle ≤ s.nextHandle)
    (anchors : w.store.Anchors w.store.nextHandle s) : w.Anchors (w.withStore s) :=
  ⟨number, Nat.le_refl _, anchors.handles, fun a live => .inl (anchors.instances a live)⟩

/-- A change that leaves the handles and the instances alone. -/
theorem anchors_of_eq (number : w'.store.nextHandle = w.store.nextHandle)
    (handles : w'.store.handles = w.store.handles)
    (instances : w'.store.instances = w.store.instances) (next : w.memory.next ≤ w'.memory.next) :
    w.Anchors w' :=
  ⟨Nat.le_of_eq number.symm, next, fun _ _ r' live => ⟨r', handles ▸ live, rfl⟩,
    fun _ live => .inl (by rwa [Store.isLive, ← instances])⟩

/-- A change of the store that leaves the handles and the instances alone. -/
theorem anchors_withStore_of_eq {s : Store} (number : s.nextHandle = w.store.nextHandle)
    (handles : s.handles = w.store.handles) (instances : s.instances = w.store.instances) :
    w.Anchors (w.withStore s) :=
  anchors_of_eq number handles instances (Nat.le_refl _)

/-- A change that leaves the store alone. -/
theorem anchors_of_store_eq (store : w'.store = w.store) (next : w.memory.next ≤ w'.memory.next) :
    w.Anchors w' :=
  anchors_of_eq (by rw [store]) (by rw [store]) (by rw [store]) next

theorem Anchors.refl (w : World) : w.Anchors w := anchors_of_store_eq rfl (Nat.le_refl _)

theorem anchors_release (claims : List Claim) (w : World) : w.Anchors (w.release claims).2 :=
  anchors_withStore
    (Nat.le_of_eq (congrArg Prod.fst (Store.release_horizon claims w.store)).symm)
    (Store.release_shrunk claims w.store).anchors

theorem anchors_claimAll (claims : List Claim) (w : World) :
    w.Anchors (w.withStore (w.store.claimAll claims)) :=
  anchors_withStore (Nat.le_of_eq (Store.claimAll_nextHandle claims w.store).symm)
    (Store.anchors_claimAll claims w.store)

theorem anchors_place (w : World) (cells : List Cell) (size : Nat) :
    w.Anchors (w.place cells size).2 :=
  anchors_of_store_eq rfl (Nat.le_of_lt (w.place_lt cells size).2)

/-- A new instance lives in new storage. -/
theorem anchors_create (w : World) (number : TypeNumber) (floating : Bool) :
    w.Anchors (w.create number floating).2 where
  number := Nat.le_refl _
  next := (w.anchors_place [] instanceStorage).next
  handles _ _ r' live := ⟨r', live, rfl⟩
  instances b live := by
    by_cases same : b = w.memory.next
    · subst same
      exact .inr ⟨Nat.le_refl _, (w.place_lt [] instanceStorage).2⟩
    · refine .inl ?_
      have old : ((w.create number floating).2.store.instances.get? b)
          = w.store.instances.get? b := Table.get?_insert_of_ne same
      rwa [Store.isLive, Table.contains, old] at live

theorem anchors_setInstance (w : World) (a : Address) (i : Instance) :
    w.Anchors (w.setInstance a i) :=
  anchors_withStore (Nat.le_refl _) (Store.anchors_setInstance a i w.store)

theorem anchors_addConnection (w : World) (i : Instance) (signal : String) (reaction : Reaction) :
    w.Anchors (w.withStore (w.store.addConnection a i signal reaction).2) := by
  refine (w.anchors_claimAll reaction.claims).trans ?_
  exact ⟨Nat.le_refl _, Nat.le_refl _, fun _ _ r' live => ⟨r', live, rfl⟩,
    fun b live => .inl ((Table.contains_set _ a b _).symm.trans live)⟩

/-- Things stay in their places when something elementary changes. -/
theorem elementary_anchors : Elementary Anchors where
  trans := Anchors.trans
  idle idle := anchors_of_eq idle.nextHandle idle.handles idle.instances
    (Nat.le_of_eq (by rw [idle.memory]))
  place := anchors_place
  claimAll := anchors_claimAll
  release := anchors_release
  addHandle r w := anchors_withStore (Nat.le_succ _) (Store.anchors_addHandle r w.store)
  addBlock w size := (w.anchors_place [] size).trans (anchors_withStore_of_eq rfl rfl rfl)
  create := anchors_create
  setInstance {w a _ i'} _ _ _ _ := w.anchors_setInstance a i'
  addConnection {w _ i} _ signal reaction := w.anchors_addConnection i signal reaction

/-- They stay there from one answer to the next. -/
theorem kept_anchors : Kept Anchors :=
  elementary_anchors.kept (fun {w a _} _ _ _ => w.anchors_setInstance a _)
    fun _ _ _ => anchors_of_store_eq rfl (Nat.le_refl _)

/-- Storage lies above all numbers of 64 bits, and instances live in storage. -/
structure Bounded (w : World) : Prop where
  /-- The least address that is not yet reserved is no number of 64 bits. -/
  storage : UInt64.size ≤ w.memory.next
  /-- Instances live below it. -/
  instances : ∀ a, w.store.isLive a = true → a < w.memory.next

theorem Orderly.bounded (orderly : w.Orderly) : w.Bounded where
  storage := orderly.books.storage
  instances a live := by
    obtain ⟨i, found⟩ := Option.isSome_iff_exists.mp live
    exact (orderly.books.instances a i found).2

theorem Anchors.bounded (anchors : w.Anchors w') (bounded : w.Bounded) : w'.Bounded where
  storage := Nat.le_trans bounded.storage anchors.next
  instances a live := by
    rcases anchors.instances a live with before | ⟨_, below⟩
    · exact Nat.lt_of_lt_of_le (bounded.instances a before) anchors.next
    · exact below

end World

end ObjectBridge
