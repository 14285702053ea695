import ObjectBridge.Proofs.Elementary
import ObjectBridge.Proofs.Ending

/-!
# What lasts

Nothing that a session does replaces a connection record or takes a connection from an instance:
a record that is still there answers as it did, and an instance that is still live has the
connections that it had, with newer ones behind them.  This holds of every answer of the machine, so
it holds of every program, and by induction on the depth of all functions of a session.
-/

namespace ObjectBridge

namespace Table

variable {α : Type} {t : Table α} {key k : Nat} {x y : α}

/-- An addition leaves the entries of other numbers alone. -/
theorem get?_insert_of_ne (other : k ≠ key) : (t.insert key y).get? k = t.get? k := by
  by_cases known : key ∈ t.rows.map Prod.fst
  · rw [insert, dif_pos known, get?_set, if_neg other]
  · rw [get?_insert t ((find_eq_none_iff key t.rows).mpr known), if_neg other]

end Table

namespace Store

variable {s s₁ s₂ s' : Store} {z : ClosureId} {n : Address}

/-- What lasts of the connection records and the instances with numbers below given ones. -/
structure Lasts (z : ClosureId) (n : Address) (s s' : Store) : Prop where
  /-- A record that is still there answers as it did. -/
  closures : ∀ c < z, ∀ r', s'.closures.get? c = some r' →
    ∃ r, s.closures.get? c = some r ∧ r'.reaction = r.reaction
  /-- An instance that is still live has the connections that it had. -/
  instances : ∀ a < n, ∀ i', s'.instances.get? a = some i' →
    ∃ i, s.instances.get? a = some i ∧ i.connections <+: i'.connections

theorem Shrunk.lasts (shrunk : s.Shrunk s') : Lasts z n s s' where
  closures c _ r' live := shrunk.closures c r' live
  instances a _ i' live := by
    obtain ⟨i, before, same⟩ := shrunk.instances a i' live
    exact ⟨i, before, same ▸ List.prefix_refl _⟩

/-- Only the tables of connection records and instances matter. -/
theorem lasts_of_eq (closures : s'.closures = s.closures) (instances : s'.instances = s.instances) :
    Lasts z n s s' :=
  ⟨fun _ _ r' live => ⟨r', closures ▸ live, rfl⟩,
    fun _ _ i' live => ⟨i', instances ▸ live, List.prefix_refl _⟩⟩

theorem Lasts.trans (first : Lasts z n s s₁) (second : Lasts z n s₁ s₂) : Lasts z n s s₂ where
  closures c below r'' live := by
    obtain ⟨r', live', reaction'⟩ := second.closures c below r'' live
    obtain ⟨r, before, reaction⟩ := first.closures c below r' live'
    exact ⟨r, before, reaction'.trans reaction⟩
  instances a below i'' live := by
    obtain ⟨i', live', newer⟩ := second.instances a below i'' live
    obtain ⟨i, before, older⟩ := first.instances a below i' live'
    exact ⟨i, before, older.trans newer⟩

theorem Lasts.mono {z' : ClosureId} {n' : Address} (lasts : Lasts z' n' s s') (closure : z ≤ z')
    (next : n ≤ n') : Lasts z n s s' where
  closures c below := lasts.closures c (Nat.lt_of_lt_of_le below closure)
  instances a below := lasts.instances a (Nat.lt_of_lt_of_le below next)

/-- Changing an instance without taking a connection from it. -/
theorem lasts_setInstance {a : Address} {i i' : Instance} (live : s.instances.get? a = some i)
    (grown : i.connections <+: i'.connections) : Lasts z n s (s.setInstance a i') where
  closures _ _ r' found := ⟨r', found, rfl⟩
  instances b _ j found := by
    rcases Table.get?_of_set found with ⟨rfl, rfl⟩ | old
    · exact ⟨i, live, grown⟩
    · exact ⟨j, old, List.prefix_refl _⟩

theorem lasts_claim (c : Claim) (s : Store) : Lasts z n s (s.claim c) := by
  cases c with
  | entry t => exact lasts_of_eq rfl rfl
  | block a => exact lasts_of_eq rfl rfl
  | handle h =>
    simp only [claim]
    split <;> exact lasts_of_eq rfl rfl
  | reference a =>
    simp only [claim]
    split
    · next i live => exact lasts_setInstance live (List.prefix_refl _)
    · exact lasts_of_eq rfl rfl
  | closure c =>
    simp only [claim]
    split
    · next r live =>
      refine ⟨fun k _ r' found => ?_, fun a _ i' found => ⟨i', found, List.prefix_refl _⟩⟩
      rcases Table.get?_of_set found with ⟨rfl, rfl⟩ | old
      · exact ⟨r, live, rfl⟩
      · exact ⟨r', old, rfl⟩
    · exact lasts_of_eq rfl rfl

theorem lasts_claimAll (claims : List Claim) (s : Store) : Lasts z n s (s.claimAll claims) := by
  induction claims generalizing s with
  | nil => exact lasts_of_eq rfl rfl
  | cons c rest ih => exact (lasts_claim c s).trans (ih (s.claim c))

theorem lasts_addHandle (r : HandleRecord) (s : Store) : Lasts z n s (s.addHandle r).2 :=
  (lasts_claimAll r.claims s).trans (lasts_of_eq rfl rfl)

theorem lasts_release (claims : List Claim) (s : Store) : Lasts z n s (s.release claims).2 :=
  (release_shrunk claims s).lasts

/-- A new instance stands above the storage of the others. -/
theorem lasts_addInstance {a : Address} (above : n ≤ a) (number : TypeNumber) (floating : Bool) :
    Lasts z n s (s.addInstance a number floating) where
  closures _ _ r' found := ⟨r', found, rfl⟩
  instances b below i' found := by
    have other : b ≠ a := fun same => Nat.not_le.mpr (same ▸ below) above
    rw [addInstance, Table.get?_insert_of_ne other] at found
    exact ⟨i', found, List.prefix_refl _⟩

/-- A new connection gets a new record, and stands behind the others. -/
theorem lasts_addConnection {a : Address} {i : Instance} (live : s.instances.get? a = some i)
    (signal : String) (reaction : Reaction) :
    Lasts s.nextClosure n s (s.addConnection a i signal reaction).2 := by
  have claimed := lasts_claimAll (z := s.nextClosure) (n := n) reaction.claims s
  refine ⟨fun c below r' found => ?_, fun b below i' found => ?_⟩
  · have other : c ≠ s.nextClosure := Nat.ne_of_lt below
    simp only [addConnection, Table.get?_insert_of_ne other] at found
    exact claimed.closures c below r' found
  · simp only [addConnection] at found
    rcases Table.get?_of_set found with ⟨rfl, rfl⟩ | old
    · exact ⟨i, live, List.prefix_append _ _⟩
    · exact claimed.instances b below i' old

end Store

/-- What lasts of a world. -/
structure World.Lasts (w w' : World) : Prop where
  /-- No number of a connection record is given out again. -/
  closure : w.store.nextClosure ≤ w'.store.nextClosure
  /-- No storage is reserved again. -/
  next : w.memory.next ≤ w'.memory.next
  /-- The records and the instances last. -/
  store : w.store.Lasts w.store.nextClosure w.memory.next w'.store

namespace World

variable {w w₁ w₂ w' : World}

theorem Lasts.trans (first : w.Lasts w₁) (second : w₁.Lasts w₂) : w.Lasts w₂ where
  closure := Nat.le_trans first.closure second.closure
  next := Nat.le_trans first.next second.next
  store := first.store.trans (second.store.mono first.closure first.next)

/-- A change of the store alone, which gives no number of a connection record out again. -/
theorem lasts_withStore {s : Store} (closure : w.store.nextClosure ≤ s.nextClosure)
    (store : w.store.Lasts w.store.nextClosure w.memory.next s) : w.Lasts (w.withStore s) :=
  ⟨closure, Nat.le_refl _, store⟩

/-- A change that leaves the store alone. -/
theorem lasts_of_store_eq (store : w'.store = w.store) (next : w.memory.next ≤ w'.memory.next) :
    w.Lasts w' :=
  ⟨by rw [store], next, store ▸ Store.lasts_of_eq rfl rfl⟩

theorem lasts_release (claims : List Claim) (w : World) : w.Lasts (w.release claims).2 where
  closure := Nat.le_of_eq (congrArg Prod.snd (Store.release_horizon claims w.store)).symm
  next := Nat.le_refl _
  store := Store.lasts_release claims w.store

/-- A change of the store that touches no connection record and no instance. -/
theorem lasts_withStore_of_eq {s : Store} (closure : s.nextClosure = w.store.nextClosure)
    (closures : s.closures = w.store.closures) (instances : s.instances = w.store.instances) :
    w.Lasts (w.withStore s) :=
  lasts_withStore (Nat.le_of_eq closure.symm) (Store.lasts_of_eq closures instances)

theorem lasts_claimAll (claims : List Claim) (w : World) :
    w.Lasts (w.withStore (w.store.claimAll claims)) :=
  lasts_withStore (Nat.le_of_eq (congrArg Prod.snd (Store.claimAll_horizon claims w.store)).symm)
    (Store.lasts_claimAll claims w.store)

theorem lasts_addHandle (w : World) (r : HandleRecord) :
    w.Lasts (w.withStore (w.store.addHandle r).2) :=
  lasts_withStore (Nat.le_of_eq (congrArg Prod.snd (Store.addHandle_horizon r w.store)).symm)
    (Store.lasts_addHandle r w.store)

theorem lasts_place (w : World) (cells : List Cell) (size : Nat) :
    w.Lasts (w.place cells size).2 :=
  lasts_of_store_eq rfl (Nat.le_of_lt (w.place_lt cells size).2)

theorem lasts_create (w : World) (number : TypeNumber) (floating : Bool) :
    w.Lasts (w.create number floating).2 where
  closure := Nat.le_refl _
  next := (w.lasts_place [] instanceStorage).next
  store := Store.lasts_addInstance (Nat.le_refl _) number floating

/-- Changing a live instance without taking a connection from it. -/
theorem lasts_setInstance {a : Address} {i i' : Instance} (live : w.store.instances.get? a = some i)
    (same : i'.connections = i.connections) : w.Lasts (w.setInstance a i') :=
  lasts_withStore (Nat.le_refl _) (Store.lasts_setInstance live (same ▸ List.prefix_refl _))

/-- What a session does not take away lasts when something elementary changes. -/
theorem elementary_lasts : Elementary Lasts where
  trans := Lasts.trans
  idle idle := ⟨Nat.le_of_eq idle.nextClosure.symm, Nat.le_of_eq (by rw [idle.memory]),
    Store.lasts_of_eq idle.closures idle.instances⟩
  place := lasts_place
  claimAll := lasts_claimAll
  release := lasts_release
  addHandle r w := w.lasts_addHandle r
  addBlock w size := (w.lasts_place [] size).trans (lasts_withStore_of_eq rfl rfl rfl)
  create := lasts_create
  setInstance live _ _ connections := lasts_setInstance live connections
  addConnection live signal reaction :=
    lasts_withStore (Nat.le_succ _) (Store.lasts_addConnection live signal reaction)

/-- It lasts from one answer to the next. -/
theorem kept_lasts : Kept Lasts :=
  elementary_lasts.kept (fun _ _ live => lasts_setInstance live rfl)
    fun _ _ _ => lasts_of_store_eq rfl (Nat.le_refl _)

end World

/-- Functions and nested steps in which everything lasts. -/
structure Calls.Lasting (calls : Calls) : Prop where
  /-- Native functions. -/
  native : ∀ callable inputs outputs (w : World), w.Lasts (calls.native callable inputs outputs w).2
  /-- Host functions. -/
  host : ∀ target arguments (w : World), w.Lasts (calls.host target arguments w).2
  /-- Setting a global. -/
  assign : ∀ name v (w : World), w.Lasts (calls.assign name v w).2
  /-- Nested steps. -/
  step : ∀ s (w : World), w.Lasts (calls.step s w).2

/-- Everything lasts while a program runs. -/
theorem Program.lasts_run {α : Type} {calls : Calls} (lasting : calls.Lasting) (p : Program α)
    (w : World) : w.Lasts (p.run calls w).2 :=
  World.kept_lasts.run ⟨lasting.native, lasting.host, lasting.assign, lasting.step⟩ p w

namespace Session

/-- Everything lasts in the functions and the nested steps of a session, at every depth. -/
theorem calls_lasting (depth : Nat) : (calls depth).Lasting :=
  have along := World.kept_lasts.session depth
  ⟨along.native, along.host, along.assign, along.step⟩

end Session
end ObjectBridge
