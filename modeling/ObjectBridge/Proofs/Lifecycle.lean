import ObjectBridge.Proofs.Scenes

/-!
# The life of an instance

An instance is live from the scene in which it is made until its last reference is given back, and
never again, because no storage is reserved twice.  In every scene of a session each instance
that was made is either live, with a reference at least, or was finalized, and no operation works on
an instance that is not live.
-/

namespace ObjectBridge

namespace World

variable {w w' x y z : World} {xs : List World} {a : Address}

/-- The instances of a world and their numbers fit together. -/
structure Sound (w : World) : Prop where
  /-- Each instance that was made is live or was finalized. -/
  counted : w.store.created = w.store.live + w.store.finalized
  /-- Each live instance has a reference. -/
  referenced : w.store.Referenced
  /-- Each live instance stands in reserved storage. -/
  reserved : ∀ a, w.store.isLive a = true → a < w.memory.next

theorem get?_eq_none (gone : w.store.isLive a = false) : w.store.instances.get? a = none :=
  Option.not_isSome_iff_eq_none.mp (ne_true_of_eq_false gone)

/-- Giving the last reference to an instance back finalizes it. -/
theorem pay_last {i : Instance} (live : w.store.instances.get? a = some i)
    (last : i.references ≤ 1) : (w.store.pay (.reference a)).2 = w.store.finalize a := by
  simp only [Store.pay, Table.countDown, live, if_pos last]
  rfl

theorem isLive_finalize (s : Store) (a b : Address) :
    (s.finalize a).isLive b = if b = a then false else s.isLive b := by
  simp only [Store.isLive, Store.finalize, Table.contains, Table.get?_erase]
  split <;> rfl

/-- New storage is not that of a live instance. -/
theorem Sound.fresh (sound : w.Sound) (fresh : w.memory.next ≤ a) : w.store.isLive a = false :=
  eq_false_of_ne_true fun live => Nat.not_lt.mpr fresh (sound.reserved a live)

theorem Turn.next (turn : w.Turn w') : w.memory.next ≤ w'.memory.next := by
  cases turn with
  | still still => exact still.next
  | made b i fresh reserved => exact Nat.le_of_lt (Nat.lt_of_le_of_lt fresh reserved)
  | ended b i live last paid => rw [paid]; exact Nat.le_refl _

/-- What is live after a turn was live before, or was made in new storage. -/
theorem Turn.live_or_new (turn : w.Turn w') (live : w'.store.isLive a = true) :
    w.store.isLive a = true ∨ (w.memory.next ≤ a ∧ a < w'.memory.next) := by
  cases turn with
  | still still => exact .inl ((still.store.live a).symm.trans live)
  | made b i fresh reserved referenced added =>
    by_cases new : a = b
    · exact .inr (new ▸ ⟨fresh, reserved⟩)
    · rw [Store.isLive, Table.contains, added, Table.get?_insert_of_ne new] at live
      exact .inl live
  | ended b i found last paid =>
    rw [paid, withStore, pay_last found last, isLive_finalize] at live
    split at live
    · contradiction
    · exact .inl live

theorem Turn.sound (turn : w.Turn w') (sound : w.Sound) : w'.Sound := by
  have reserved : ∀ a, w'.store.isLive a = true → a < w'.memory.next := fun a live => by
    rcases turn.live_or_new live with before | ⟨_, new⟩
    · exact Nat.lt_of_lt_of_le (sound.reserved a before) turn.next
    · exact new
  have counted := sound.counted
  cases turn with
  | still still =>
    refine ⟨?_, still.store.referenced sound.referenced, reserved⟩
    rw [still.store.created, still.store.size, still.store.finalized, counted]
  | made b i fresh _ referenced added created finalized =>
    have absent := get?_eq_none (sound.fresh fresh)
    refine ⟨?_, fun a j found => ?_, reserved⟩
    · rw [created, finalized, Store.live, added, Table.size_insert _ absent, counted, Store.live]
      omega
    · rw [added] at found
      rcases Table.get?_of_insert absent found with ⟨_, rfl⟩ | old
      · exact Nat.lt_of_lt_of_eq Nat.one_pos referenced.symm
      · exact sound.referenced a j old
  | ended b i live last paid =>
    rw [paid, pay_last live last]
    refine ⟨?_, fun a j found => sound.referenced a j (Table.get?_of_erase found), ?_⟩
    · have less := Table.size_erase w.store.instances live
      simp only [withStore, Store.finalize, Store.live] at counted less ⊢
      omega
    · rwa [paid, pay_last live last] at reserved

/-- An instance that is live before a turn and not after it has ended by the turn: its only reference
was given back, and it was finalized. -/
theorem Turn.last_reference (turn : w.Turn w') (sound : w.Sound) (live : w.store.isLive a = true)
    (gone : w'.store.isLive a = false) :
    w.store.references a = 1 ∧ w' = w.withStore (w.store.pay (.reference a)).2
      ∧ w'.store = w.store.finalize a := by
  cases turn with
  | still still => rw [still.store.live, live] at gone; contradiction
  | made b i fresh _ _ added =>
    have other : a ≠ b := fun same => by
      rw [same, sound.fresh fresh] at live
      contradiction
    rw [Store.isLive, Table.contains, added, Table.get?_insert_of_ne other] at gone
    exact absurd live (ne_true_of_eq_false gone)
  | ended b i found last paid =>
    have same : a = b := by
      rw [paid, withStore, pay_last found last, isLive_finalize] at gone
      by_contra other
      rw [if_neg other, live] at gone
      contradiction
    subst same
    have positive := sound.referenced a i found
    refine ⟨?_, paid, ?_⟩
    · rw [Store.references, found]
      exact Nat.le_antisymm last positive
    · rw [paid, withStore, pay_last found last]

/-- Whatever a turn finalizes was live before it and is not after it. -/
theorem Turn.of_finalized (turn : w.Turn w') (more : w'.store.finalized ≠ w.store.finalized) :
    ∃ a, w.store.isLive a = true ∧ w'.store.isLive a = false := by
  cases turn with
  | still still => exact absurd still.store.finalized more
  | made b i _ _ _ _ _ finalized => exact absurd finalized more
  | ended b i live last paid =>
    refine ⟨b, Option.isSome_iff_exists.mpr ⟨i, live⟩, ?_⟩
    rw [paid, withStore, pay_last live last, isLive_finalize, if_pos rfl]

/-- What every turn keeps holds along a path. -/
theorem Path.forall {P : World → Prop} (path : w.Path xs w')
    (kept : ∀ {x y : World}, x.Turn y → P x → P y) (start : P w) : ∀ x ∈ xs, P x := by
  induction xs generalizing w with
  | nil => simp
  | cons y rest ih =>
    have after := kept path.1 start
    intro x member
    rcases List.mem_cons.mp member with rfl | later
    · exact after
    · exact ih path.2 after x later

/-- Storage that was reserved, and in which no instance is live, stays without one. -/
theorem Path.gone (path : w.Path xs w') (reserved : a < w.memory.next)
    (gone : w.store.isLive a = false) : ∀ x ∈ xs, x.store.isLive a = false := by
  refine fun x member => (path.forall (P := fun x => a < x.memory.next ∧ x.store.isLive a = false)
    (fun {x y} turn before => ⟨Nat.lt_of_lt_of_le before.1 turn.next, ?_⟩) ⟨reserved, gone⟩ x member).2
  refine eq_false_of_ne_true fun live => ?_
  rcases turn.live_or_new live with old | ⟨new, _⟩
  · rw [before.2] at old
    contradiction
  · exact Nat.not_le.mpr before.1 new

/-- What is one after the other on a path is one turn apart. -/
theorem Path.turn (path : w.Path xs w') (next : [x, y] <:+: w :: xs) : x.Turn y := by
  induction xs generalizing w with
  | nil => exact absurd next.length_le (by simp)
  | cons u rest ih =>
    rcases List.infix_cons_iff.mp next with first | later
    · obtain ⟨rfl, second⟩ := List.cons_prefix_cons.mp first
      obtain ⟨rfl, _⟩ := List.cons_prefix_cons.mp second
      exact path.1
    · exact ih path.2 later

/-- An instance that has ended is never live again. -/
theorem Path.never_again (path : w.Path xs w') (sound : w.Sound)
    (order : [x, y, z].Sublist (w :: xs)) (live : x.store.isLive a = true)
    (gone : y.store.isLive a = false) : z.store.isLive a = false := by
  have after {w : World} {xs : List World} (path : w.Path xs w') (reserved : a < w.memory.next)
      (order : [y, z].Sublist xs) : z.store.isLive a = false := by
    induction xs generalizing w with
    | nil => cases order
    | cons u rest ih =>
      have reserved' := Nat.lt_of_lt_of_le reserved path.1.next
      cases order with
      | cons _ later => exact ih path.2 reserved' later
      | cons_cons _ last =>
        exact path.2.gone reserved' gone z (List.singleton_sublist.mp last)
  induction xs generalizing w with
  | nil => exact absurd order.length_le (by simp)
  | cons u rest ih =>
    cases order with
    | cons _ later => exact ih path.2 (path.1.sound sound) later
    | cons_cons _ last => exact after path (sound.reserved a live) last

/-- Every operation on an address that needs a live instance there panics and changes nothing. -/
structure Refuses (calls : Calls) (w : World) (a : Address) : Prop where
  /-- The requests. -/
  requests : ∀ r : Request, r.subject? = some a → w.answer calls r = (.stopped (.notLive a), w)
  /-- Giving a reference back. -/
  release : w.release [.reference a] = (.stopped (.notLive a), w)
  /-- Reading a property. -/
  readProperty : ∀ name, (Runtime.readProperty a name).run.run calls w = (.stopped (.notLive a), w)
  /-- Writing a property. -/
  writeProperty : ∀ name slot,
    (Runtime.writeProperty a name slot).run.run calls w = (.stopped (.notLive a), w)
  /-- Looking at what is stored of a property. -/
  storedProperty : ∀ name,
    (Runtime.storedProperty a name).run calls w = (.stopped (.notLive a), w)
  /-- Making a connection. -/
  attach : ∀ signal reaction,
    (Signal.attach a signal reaction).run.run calls w = (.stopped (.notLive a), w)
  /-- Emitting a signal. -/
  emit : ∀ signal arguments,
    (Signal.emit a signal arguments).run calls w = (.stopped (.notLive a), w)

theorem refuses (calls : Calls) (gone : w.store.isLive a = false) : w.Refuses calls a := by
  have looked : w.answer calls (.liveInstance a) = (.stopped (.notLive a), w) :=
    answer_not_live calls rfl gone
  have first {α : Type} (next : (Request.liveInstance a).Reply → Program α) :
      (Program.ask (.liveInstance a) next).run calls w = (.stopped (.notLive a), w) := by
    simp only [Program.run, looked]
  refine ⟨fun r subject => answer_not_live calls subject gone, ?_, fun name => first _,
    fun name slot => first _, fun name => first _, fun signal reaction => first _,
    fun signal arguments => first _⟩
  have absent := get?_eq_none gone
  have faulty : w.store.release [.reference a] = ([a], w.store) := by
    rw [Store.release]
    split
    · rw [Store.release]
    · next i live => rw [absent] at live; contradiction
  rw [World.release, faulty]
  rfl

end World

namespace Session

theorem start_sound (options : Options) : (start options).Sound :=
  ⟨rfl, fun _ _ live => (nomatch live), fun _ live => (nomatch live)⟩

/-- In every scene of every session, the boundaries of its steps included, each instance that was
made is either live, with a reference at least, or was finalized, and every operation that needs a
live instance where there is none panics and changes nothing.  An instance ends when its only
reference is given back, which finalizes it; nothing else is ever finalized; and an instance that has
ended is never live again. -/
theorem instance_lifecycle (options : Options) (depth : Nat) (steps : List Script.Step) :
    boundaries depth steps (start options) ⊆ scenes options depth steps
      ∧ (∀ w ∈ scenes options depth steps,
          w.store.created = w.store.live + w.store.finalized
            ∧ (∀ a i, w.store.instances.get? a = some i → 1 ≤ i.references)
            ∧ ∀ calls a, w.store.isLive a = false → w.Refuses calls a)
      ∧ (∀ x y, [x, y] <:+: scenes options depth steps →
          (∀ a, x.store.isLive a = true → y.store.isLive a = false →
            x.store.references a = 1 ∧ y = x.withStore (x.store.pay (.reference a)).2
              ∧ y.store = x.store.finalize a)
          ∧ (y.store.finalized ≠ x.store.finalized →
            ∃ a, x.store.isLive a = true ∧ y.store.isLive a = false))
      ∧ ∀ x y z, [x, y, z].Sublist (scenes options depth steps) → ∀ a,
          x.store.isLive a = true → y.store.isLive a = false → z.store.isLive a = false := by
  obtain ⟨rest, last, listed, path⟩ := path_scenes options depth steps
  have sound := start_sound options
  have all : ∀ w ∈ scenes options depth steps, w.Sound := by
    rw [listed]
    exact List.forall_mem_cons.mpr ⟨sound, path.forall (fun turn => turn.sound) sound⟩
  refine ⟨boundaries_subset_scenes options depth steps, fun w member => ?_, fun x y next => ?_,
    fun x y z order a live gone => ?_⟩
  · have here := all w member
    exact ⟨here.counted, here.referenced, fun calls a gone => World.refuses calls gone⟩
  · have before := all x (next.subset List.mem_cons_self)
    have turn := path.turn (listed ▸ next)
    exact ⟨fun a live gone => turn.last_reference before live gone, turn.of_finalized⟩
  · exact path.never_again sound (listed ▸ order) live gone

/-- Dropping the first variable of the cascade ends one instance, dropping the others the second. -/
example : ((scenes {} 1 sampleCascade).map fun w => w.store.totals.finalized).dedup = [0, 1, 2] := by
  decide +kernel

end Session
end ObjectBridge
