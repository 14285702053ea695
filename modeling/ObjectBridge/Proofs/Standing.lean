import ObjectBridge.Proofs.Anchoring

/-!
# What handles stand for

A handle is attached to one thing, and kept by one handle, for as long as there is a record of it;
what shares of it are taken and given back does not matter.  This holds throughout every run.
-/

namespace ObjectBridge

namespace Store

variable {s s₁ s₂ s' : Store} {z : HandleId}

/-- The handles with numbers below a given one stand for what they stood for. -/
def Endures (z : HandleId) (s s' : Store) : Prop :=
  ∀ h < z, ∀ r', s'.handles.get? h = some r' →
    ∃ r, s.handles.get? h = some r ∧ r'.attachment = r.attachment ∧ r'.keeper = r.keeper

theorem endures_of_eq (handles : s'.handles = s.handles) : Endures z s s' :=
  fun _ _ r' live => ⟨r', handles ▸ live, rfl, rfl⟩

theorem Shrunk.endures (shrunk : s.Shrunk s') : Endures z s s' :=
  fun h _ r' live => shrunk.handles h r' live

theorem Endures.trans (first : Endures z s s₁) (second : Endures z s₁ s₂) : Endures z s s₂ := by
  intro h below r'' live
  obtain ⟨r', live', attachment', keeper'⟩ := second h below r'' live
  obtain ⟨r, before, attachment, keeper⟩ := first h below r' live'
  exact ⟨r, before, attachment'.trans attachment, keeper'.trans keeper⟩

theorem endures_claim (c : Claim) (s : Store) : Endures z s (s.claim c) := by
  cases c with
  | entry t | block a => exact endures_of_eq rfl
  | reference a | closure c =>
    simp only [claim]
    split <;> exact endures_of_eq rfl
  | handle h =>
    simp only [claim]
    split
    · next r live =>
      intro k _ r' found
      rcases Table.get?_of_set found with ⟨rfl, rfl⟩ | old
      · exact ⟨r, live, rfl, rfl⟩
      · exact ⟨r', old, rfl, rfl⟩
    · exact endures_of_eq rfl

theorem endures_claimAll (claims : List Claim) (s : Store) : Endures z s (s.claimAll claims) := by
  induction claims generalizing s with
  | nil => exact endures_of_eq rfl
  | cons c rest ih => exact (endures_claim c s).trans (ih (s.claim c))

/-- A new handle gets a new number. -/
theorem endures_addHandle (r : HandleRecord) (s : Store) :
    Endures s.nextHandle s (s.addHandle r).2 := by
  intro h below r' found
  simp only [addHandle, Table.get?_insert_of_ne (Nat.ne_of_lt below)] at found
  exact endures_claimAll r.claims s h below r' found

end Store

namespace World

variable {w w₁ w₂ w' : World}

/-- Handles stand for what they stood for, and their numbers are not given out again. -/
structure Endures (w w' : World) : Prop where
  /-- Numbers of handles only grow. -/
  number : w.store.nextHandle ≤ w'.store.nextHandle
  /-- The handles that there were stand for what they stood for. -/
  handles : w.store.Endures w.store.nextHandle w'.store

theorem Endures.trans (first : w.Endures w₁) (second : w₁.Endures w₂) : w.Endures w₂ where
  number := Nat.le_trans first.number second.number
  handles h below r'' live := by
    obtain ⟨r', live', attachment', keeper'⟩ :=
      second.handles h (Nat.lt_of_lt_of_le below first.number) r'' live
    obtain ⟨r, before, attachment, keeper⟩ := first.handles h below r' live'
    exact ⟨r, before, attachment'.trans attachment, keeper'.trans keeper⟩

/-- A change that leaves the handles alone. -/
theorem endures_of_eq (number : w'.store.nextHandle = w.store.nextHandle)
    (handles : w'.store.handles = w.store.handles) : w.Endures w' :=
  ⟨Nat.le_of_eq number.symm, Store.endures_of_eq handles⟩

theorem Endures.refl (w : World) : w.Endures w := endures_of_eq rfl rfl

theorem endures_release (claims : List Claim) (w : World) : w.Endures (w.release claims).2 :=
  ⟨Nat.le_of_eq (congrArg Prod.fst (Store.release_horizon claims w.store)).symm,
    (Store.release_shrunk claims w.store).endures⟩

theorem endures_claimAll (claims : List Claim) (w : World) :
    w.Endures (w.withStore (w.store.claimAll claims)) :=
  ⟨Nat.le_of_eq (Store.claimAll_nextHandle claims w.store).symm,
    Store.endures_claimAll claims w.store⟩

theorem endures_addHandle (r : HandleRecord) (w : World) :
    w.Endures (w.withStore (w.store.addHandle r).2) :=
  ⟨Nat.le_succ _, Store.endures_addHandle r w.store⟩

/-- Handles endure elementary changes. -/
theorem elementary_endures : Elementary Endures where
  trans := Endures.trans
  idle idle := endures_of_eq idle.nextHandle idle.handles
  place _ _ _ := endures_of_eq rfl rfl
  claimAll := endures_claimAll
  release := endures_release
  addHandle := endures_addHandle
  addBlock _ _ := endures_of_eq rfl rfl
  create _ _ _ := endures_of_eq rfl rfl
  setInstance _ _ _ _ := endures_of_eq rfl rfl
  addConnection {w _ _} _ _ reaction :=
    (endures_claimAll reaction.claims w).trans (endures_of_eq rfl rfl)

/-- Handles endure every answer. -/
theorem kept_endures : Kept Endures :=
  elementary_endures.kept (fun _ _ _ => endures_of_eq rfl rfl) fun _ _ _ => endures_of_eq rfl rfl

end World
end ObjectBridge
