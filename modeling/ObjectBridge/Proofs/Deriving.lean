import ObjectBridge.Proofs.Addressing
import ObjectBridge.Proofs.Casting
import ObjectBridge.Proofs.Placing

/-!
# Deriving handles

Casting a handle, and extracting a method that takes an instance, derives a handle on the same
instance.  The new handle takes a reference of its own to a live instance, or it is kept by the
handle that it comes from.
-/

namespace ObjectBridge

open Program

variable {calls : Calls} {w u w' : World} {a : Address} {h source : HandleId} {info method : Token}
  {retains : Bool} {e : Entry}

/-- A handle that is added ends no other. -/
theorem Store.contains_addHandle (r : HandleRecord) (s : Store) {k : HandleId}
    (live : s.handles.contains k = true) : (s.addHandle r).2.handles.contains k = true := by
  by_cases new : k = s.nextHandle
  · subst new
    exact congrArg Option.isSome (Table.get?_insert_self _ _ _)
  · have before := ((claimAll_live r.claims s).2 k).trans live
    exact (congrArg Option.isSome (Table.get?_insert_of_ne new)).trans before

namespace Handle

/-- What deriving a handle leaves. -/
structure Derives (w w' : World) (source h : HandleId) (info : Token) (a : Address)
    (retains : Bool) : Prop where
  /-- The new handle is on the instance. -/
  made : w'.store.handles.get? h = some (castRecord info source a retains)
  /-- It takes a reference of its own only to a live instance. -/
  live : retains = true → w'.store.isLive a = true
  /-- The handle that it comes from does not end. -/
  source : w.store.handles.contains source = true → w'.store.handles.contains source = true
  /-- Direct calls took nothing and gave nothing back. -/
  balance : w'.store.instanceBalance = w.store.instanceBalance

theorem derives_openRecord
    (opened : openRecord w (castRecord info source a retains) = (.done h, w')) :
    Derives w w' source h info a retains := by
  have fine : retains = true → w.store.isLive a = true := by
    rintro rfl
    by_contra dead
    rw [openRecord_dead (Bool.eq_false_iff.mpr dead)] at opened
    cases opened
  rw [openRecord_fine fine] at opened
  cases opened
  exact
    { made := Table.get?_insert_self _ _ _
      live := fun retained => ((Store.claimAll_live _ w.store).1 a).trans (fine retained)
      source := Store.contains_addHandle _ w.store
      balance := Store.claimAll_instanceBalance _ _ }

/-- What making a derived handle does, after looking. -/
theorem derives_derived (took : w.Took u []) (present : a ≠ 0)
    (ran : (derived source (some info) a retains : Program HandleId).run calls u = (.done h, w')) :
    Derives w w' source h info a retains := by
  rw [run_derived calls u present] at ran
  have store := took.reading.store
  obtain ⟨made, live, still, balance⟩ := derives_openRecord ran
  exact ⟨made, live, fun there => still (by rw [store]; exact there),
    balance.trans (by rw [store])⟩

/-- A cast that ends derives a handle. -/
theorem derives_cast (present : (w.store.handle source).address ≠ 0)
    (ran : (cast info source).run calls w = (.done h, w')) :
    ∃ retains, Derives w w' source h info (w.store.handle source).address retains := by
  have traced {retains : Bool}
      (ran : (trace [info] >>= fun _ =>
          derived source (some info) (w.store.handle source).address retains).run calls w
        = (.done h, w')) :
      ∃ retains, Derives w w' source h info (w.store.handle source).address retains := by
    obtain ⟨_, u, traced, ran⟩ := run_bind_done.mp ran
    exact ⟨retains, derives_derived (leaves_trace calls w w () u (.refl w) traced) present ran⟩
  obtain ⟨r, _, looked, ran⟩ := run_bind_done.mp ran
  cases looked
  obtain ⟨target, _, looked, ran⟩ := run_bind_done.mp ran
  obtain ⟨_, rfl⟩ := run_entry.mp looked
  dsimp only at ran
  split at ran
  · obtain ⟨e, _, looked, ran⟩ := run_bind_done.mp ran
    obtain ⟨_, rfl⟩ := run_entry.mp looked
    exact traced ran
  · exact traced ran

/-- Binding a method that takes an instance derives a handle. -/
theorem derives_bindMethod (known : w.database.entry? method = some e)
    (flagged : e.callableFlags.contains CallableFlag.method = true)
    (bound : (w.store.handle source).isBound = true)
    (present : (w.store.handle source).address ≠ 0)
    (ran : (bindMethod source (w.store.handle source) method).run calls w = (.done h, w')) :
    ∃ retains, Derives w w' source h method (w.store.handle source).address retains := by
  obtain ⟨callable, _, looked, ran⟩ := run_bind_done.mp ran
  obtain ⟨found, rfl⟩ := run_entry.mp looked
  cases known.symm.trans found
  rw [flagged, bound] at ran
  dsimp only at ran
  split at ran
  · next impossible => cases impossible
  split at ran
  · obtain ⟨type, _, looked, ran⟩ := run_bind_done.mp ran
    obtain ⟨_, rfl⟩ := run_entry.mp looked
    exact ⟨_, derives_derived (.refl w) present ran⟩
  · exact ⟨false, derives_derived (.refl w) present ran⟩

end Handle
end ObjectBridge
