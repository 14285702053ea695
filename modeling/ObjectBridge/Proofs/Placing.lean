import ObjectBridge.Proofs.Anchoring

/-!
# Where instances and blocks stand

Instances and blocks stand in storage of their own, which is reserved once: nothing stands at the
null address, no block stands where an instance is live, and no block is listed twice.
-/

namespace ObjectBridge

namespace Store

/-- Giving claims back frees blocks. -/
theorem release_blocks (owed : List Claim) (s : Store) :
    (s.release owed).2.blocks.Sublist s.blocks := by
  fun_induction Store.release owed s with
  | case1 => exact .refl _
  | case3 s a rest ih => exact ih.trans List.erase_sublist
  | case10 s a rest gone faults s' equal ih => rwa [equal] at ih
  | _ => assumption

theorem claimAll_blocks (claims : List Claim) (s : Store) : (s.claimAll claims).blocks = s.blocks :=
  claimAll_project (·.blocks) (fun _ _ _ _ _ => rfl) claims s

/-- Taking claims makes nothing and ends nothing. -/
theorem claimAll_live (claims : List Claim) (s : Store) :
    (∀ a, (s.claimAll claims).isLive a = s.isLive a)
      ∧ ∀ k, (s.claimAll claims).handles.contains k = s.handles.contains k := by
  have single (c : Claim) (s : Store) : (∀ a, (s.claim c).isLive a = s.isLive a)
      ∧ ∀ k, (s.claim c).handles.contains k = s.handles.contains k := by
    cases c with
    | entry t | block b => exact ⟨fun _ => rfl, fun _ => rfl⟩
    | closure c =>
      rw [claim]
      split <;> exact ⟨fun _ => rfl, fun _ => rfl⟩
    | handle h =>
      rw [claim]
      split
      · exact ⟨fun _ => rfl, fun k => Table.contains_set _ h k _⟩
      · exact ⟨fun _ => rfl, fun _ => rfl⟩
    | reference b =>
      rw [claim]
      split
      · exact ⟨fun a => Table.contains_set _ b a _, fun _ => rfl⟩
      · exact ⟨fun _ => rfl, fun _ => rfl⟩
  induction claims generalizing s with
  | nil => exact ⟨fun _ => rfl, fun _ => rfl⟩
  | cons c rest ih =>
    exact ⟨fun a => ((ih (s.claim c)).1 a).trans ((single c s).1 a),
      fun k => ((ih (s.claim c)).2 k).trans ((single c s).2 k)⟩

end Store

namespace World

variable {w w' : World}

/-- Instances and blocks stand in storage of their own. -/
structure Placed (w : World) : Prop where
  /-- The null address is reserved. -/
  next : 0 < w.memory.next
  /-- Instances stand in storage. -/
  instances : ∀ a, w.store.isLive a = true → 0 < a ∧ a < w.memory.next
  /-- So do blocks, and no instance stands there. -/
  blocks : ∀ a ∈ w.store.blocks, 0 < a ∧ a < w.memory.next ∧ w.store.isLive a = false
  /-- No block is listed twice. -/
  once : w.store.blocks.Nodup

/-- The later world is placed if the earlier one is. -/
def Places (w w' : World) : Prop := w.Placed → w'.Placed

theorem Places.trans {w₁ w₂ : World} (first : w.Places w₁) (second : w₁.Places w₂) : w.Places w₂ :=
  fun placed => second (first placed)

/-- A change that makes no instance and no block. -/
theorem places_of_fewer (next : w.memory.next ≤ w'.memory.next)
    (instances : ∀ a, w'.store.isLive a = true → w.store.isLive a = true)
    (blocks : w'.store.blocks.Sublist w.store.blocks) : w.Places w' := fun placed =>
  { next := Nat.lt_of_lt_of_le placed.next next
    instances := fun a live =>
      have ⟨above, below⟩ := placed.instances a (instances a live)
      ⟨above, Nat.lt_of_lt_of_le below next⟩
    blocks := fun a member =>
      have ⟨above, below, free⟩ := placed.blocks a (blocks.subset member)
      ⟨above, Nat.lt_of_lt_of_le below next, Bool.eq_false_iff.mpr fun live =>
        Bool.eq_false_iff.mp free (instances a live)⟩
    once := placed.once.sublist blocks }

/-- A change that leaves the instances and the blocks alone. -/
theorem places_of_eq (next : w.memory.next ≤ w'.memory.next)
    (instances : w'.store.instances = w.store.instances)
    (blocks : w'.store.blocks = w.store.blocks) : w.Places w' :=
  places_of_fewer next (fun _ live => by rwa [Store.isLive, ← instances]) (blocks ▸ .refl _)

theorem places_release (claims : List Claim) (w : World) : w.Places (w.release claims).2 :=
  places_of_fewer (Nat.le_refl _)
    (((Store.release_shrunk claims w.store).anchors (z := 0)).instances)
    (Store.release_blocks claims w.store)

theorem places_claimAll (claims : List Claim) (w : World) :
    w.Places (w.withStore (w.store.claimAll claims)) :=
  places_of_fewer (Nat.le_refl _)
    (fun a live => ((Store.claimAll_live claims w.store).1 a).symm.trans live)
    (Store.claimAll_blocks claims w.store ▸ .refl _)

/-- Storage that is reserved lies above all that stood before. -/
theorem places_create (w : World) (number : TypeNumber) (floating : Bool) :
    w.Places (w.create number floating).2 := by
  intro placed
  obtain ⟨start, grows⟩ := w.place_lt [] instanceStorage
  have others {a : Address} (other : a ≠ w.memory.next) :
      (w.create number floating).2.store.isLive a = w.store.isLive a :=
    congrArg Option.isSome (Table.get?_insert_of_ne other)
  have next : (w.create number floating).2.memory.next
      = (w.place [] instanceStorage).2.memory.next := rfl
  refine ⟨Nat.lt_trans placed.next grows, fun a live => ?_, fun a member => ?_, placed.once⟩
  · by_cases new : a = w.memory.next
    · exact ⟨new ▸ placed.next, new ▸ grows⟩
    · rw [others new] at live
      obtain ⟨above, below⟩ := placed.instances a live
      exact ⟨above, Nat.lt_trans below grows⟩
  · obtain ⟨above, below, free⟩ := placed.blocks a member
    exact ⟨above, Nat.lt_trans below grows, (others (Nat.ne_of_lt below)).trans free⟩

theorem places_block (w : World) (size : Nat) :
    w.Places ((w.place [] size).2.withStore
      { w.store with blocks := (w.place [] size).1 :: w.store.blocks }) := by
  intro placed
  obtain ⟨start, grows⟩ := w.place_lt [] size
  have fresh : w.memory.next ∉ w.store.blocks := fun member =>
    Nat.lt_irrefl _ (placed.blocks _ member).2.1
  refine ⟨Nat.lt_trans placed.next grows, fun a live => ?_, fun a member => ?_,
    List.nodup_cons.mpr ⟨start ▸ fresh, placed.once⟩⟩
  · obtain ⟨above, below⟩ := placed.instances a live
    exact ⟨above, Nat.lt_trans below grows⟩
  · rcases List.mem_cons.mp member with new | old
    · rw [start] at new
      refine ⟨new ▸ placed.next, new ▸ grows, Bool.eq_false_iff.mpr fun live => ?_⟩
      exact Nat.ne_of_lt (placed.instances a live).2 new
    · obtain ⟨above, below, free⟩ := placed.blocks a old
      exact ⟨above, Nat.lt_trans below grows, free⟩

theorem places_setInstance (w : World) (a : Address) (i : Instance) :
    w.Places (w.setInstance a i) :=
  places_of_fewer (Nat.le_refl _)
    (fun b live => (Table.contains_set w.store.instances a b i).symm.trans live) (.refl _)

theorem places_addConnection {a : Address} (w : World) (i : Instance) (signal : String)
    (reaction : Reaction) :
    w.Places (w.withStore (w.store.addConnection a i signal reaction).2) := by
  refine (w.places_claimAll reaction.claims).trans ?_
  exact places_of_fewer (Nat.le_refl _)
    (fun b live => (Table.contains_set _ a b _).symm.trans live) (.refl _)

/-- Things stand in places of their own when something elementary changes. -/
theorem elementary_places : Elementary Places where
  trans := Places.trans
  idle idle := places_of_eq (Nat.le_of_eq (by rw [idle.memory])) idle.instances idle.blocks
  place w cells size := places_of_eq (Nat.le_of_lt (w.place_lt cells size).2) rfl rfl
  claimAll := places_claimAll
  release := places_release
  addHandle r w := (w.places_claimAll r.claims).trans (places_of_eq (Nat.le_refl _) rfl rfl)
  addBlock := places_block
  create := places_create
  setInstance {w a _ i'} _ _ _ _ := w.places_setInstance a i'
  addConnection {w _ i} _ signal reaction := w.places_addConnection i signal reaction

/-- They stand there from one answer to the next. -/
theorem kept_places : Kept Places :=
  elementary_places.kept (fun {w a _} _ _ _ => w.places_setInstance a _)
    fun _ _ _ => places_of_eq (Nat.le_refl _) rfl rfl

end World

namespace Session

end Session
end ObjectBridge
