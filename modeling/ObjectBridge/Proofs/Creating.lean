import ObjectBridge.Proofs.Copying
import ObjectBridge.Proofs.Failing
import ObjectBridge.Proofs.Invoking

/-!
# What a construction leaves

Evaluating the handle of an object type with initializers fails without a trace, or it makes one
instance.  The instance has exactly the given properties, each with its last value, and the handle
that is given back has its only reference.
-/

namespace ObjectBridge

open Program Bridge Descriptor

variable {calls : Calls} {w w₁ w' : World} {a : Address}

namespace Table

variable {α : Type} {key : Nat} {x y : α}

/-- A change of an entry that was just added. -/
theorem set_insert {t : Table α} (absent : t.get? key = none) :
    (t.insert key y).set key x = t.insert key x := by
  refine ext ?_
  change replace key x (t.insert key y).rows = (t.insert key x).rows
  rw [insert_of_absent t absent, insert_of_absent t absent]
  have unknown := (find_eq_none_iff key t.rows).mp absent
  revert unknown
  induction t.rows with
  | nil => simp [replace]
  | cons row rest ih =>
    obtain ⟨k, z⟩ := row
    intro unknown
    rw [List.map_cons, List.mem_cons, not_or] at unknown
    rw [List.cons_append, replace, if_neg (Ne.symm unknown.1), ih unknown.2, List.cons_append]

end Table

/-- Assign the values of some names, one after the other. -/
def assignAll {α : Type} (rows bindings : List (String × α)) : List (String × α) :=
  rows.foldl (fun bindings row => assign row.1 row.2 bindings) bindings

section assignAll

variable {α : Type} {name : String} {rows bindings : List (String × α)}

theorem lookup_assign (n : String) (x : α) :
    (assign n x bindings).lookup name = if name = n then some x else bindings.lookup name := by
  induction bindings with
  | nil =>
    rw [assign, List.lookup_cons, beq_eq_decide]
    split <;> simp_all
  | cons row rest ih =>
    obtain ⟨m, y⟩ := row
    rw [assign]
    by_cases same : m = n
    · rw [if_pos same, List.lookup_cons, List.lookup_cons, beq_eq_decide, same]
      by_cases here : name = n <;> simp [here]
    · rw [if_neg same, List.lookup_cons, List.lookup_cons, ih, beq_eq_decide]
      by_cases here : name = m
      · have other : name ≠ n := here ▸ same
        simp only [here, decide_true, same, if_false]
      · simp only [here, decide_false]

/-- The last value of a name is the one that it gets. -/
theorem lookup_assignAll :
    (assignAll rows bindings).lookup name
      = (rows.reverse.lookup name).or (bindings.lookup name) := by
  induction rows generalizing bindings with
  | nil => rfl
  | cons row rest ih =>
    change (assignAll rest (assign row.1 row.2 bindings)).lookup name = _
    rw [ih, lookup_assign, List.reverse_cons, List.lookup_append, List.lookup_cons, beq_eq_decide]
    cases rest.reverse.lookup name with
    | some y => rfl
    | none => by_cases here : name = row.1 <;> simp [here]

theorem nodup_assignAll (distinct : (bindings.map Prod.fst).Nodup) :
    ((assignAll rows bindings).map Prod.fst).Nodup := by
  induction rows generalizing bindings with
  | nil => exact distinct
  | cons row rest ih => exact ih (nodup_assign row.1 row.2 distinct)

end assignAll
namespace Runtime

variable {number : TypeNumber} {i : Instance} {found : List (Token × Initial)}

/-- A world with other memory and other properties of an instance. -/
def filled (w : World) (m : Memory) (a : Address) (i : Instance)
    (properties : List (String × Slot)) : World :=
  { w.setInstance a { i with properties := properties } with memory := m }

/-- What is stored of an initial property of a type: its name and what is kept of its slot. -/
structure StoredAs (db : Database) (m m' : Memory) (row : Token × Initial) (kept : String × Slot) :
    Prop where
  /-- The name. -/
  name : kept.1 = row.2.name
  /-- The slot. -/
  slot : Copied m m' (db.declaredTag row.1) row.2.slot kept.2

theorem run_storeProperty_live (live : w.store.instances.get? a = some i) (property : Token)
    (name : String) (slot : Slot) :
    ∃ kept m, (storeProperty a property name slot).run calls w
        = (.done (), filled w m a i (assign name kept i.properties))
      ∧ w.memory.Extends m ∧ Copied w.memory m (w.database.declaredTag property) slot kept := by
  obtain ⟨kept, m, ran, grown, copied⟩ :=
    run_copyString calls (w.database.declaredTag property) slot w
  refine ⟨kept, m, ?_, grown, copied⟩
  refine run_bind_done.mpr ⟨w.database, w, run_database.mpr ⟨rfl, rfl⟩, ?_⟩
  refine run_bind_done.mpr ⟨i, w, run_liveInstance.mpr ⟨live, rfl⟩, ?_⟩
  refine run_bind_done.mpr ⟨kept, _, ran, run_request.trans ?_⟩
  simp only [World.answer, World.withInstance, live]
  rfl

/-- Storing properties one after the other: those that are there are kept or assigned again. -/
theorem run_storeAll (calls : Calls) (found : List (Token × Initial))
    (live : w.store.instances.get? a = some i) :
    ∃ rows m, (forEach (fun (property, p) => storeProperty a property p.name p.slot) found).run
        calls w = (.done (), filled w m a i (assignAll rows i.properties))
      ∧ w.memory.Extends m
      ∧ List.Forall₂ (StoredAs w.database w.memory m) found rows := by
  induction found generalizing w i with
  | nil =>
    refine ⟨[], w.memory, ?_, .refl _, .nil⟩
    have same : w.store.instances.set a { i with properties := assignAll [] i.properties }
        = w.store.instances := Table.set_self live
    rw [filled, World.setInstance, same]
    rfl
  | cons row rest ih =>
    obtain ⟨kept, m, ran, grown, copied⟩ :=
      run_storeProperty_live live row.1 row.2.name row.2.slot
    have there : (filled w m a i (assign row.2.name kept i.properties)).store.instances.get? a
        = some { i with properties := assign row.2.name kept i.properties } := by
      change (w.store.instances.set a _).get? a = _
      rw [Table.get?_set, if_pos rfl, live, Option.map_some]
    obtain ⟨rows, m', later, grows, stored⟩ := ih there
    have wide : w.memory.Extends m' := grown.trans grows
    refine ⟨(row.2.name, kept) :: rows, m', run_bind_done.mpr ⟨(), _, ran, ?_⟩, wide,
      .cons ⟨rfl, copied.mono (.refl _) grows⟩ (stored.imp fun _ _ same =>
        ⟨same.name, same.slot.mono grown (.refl _)⟩)⟩
    refine later.trans ?_
    simp only [filled, World.setInstance, World.withStore, Table.set_set]
    rfl

/-- Initial properties that the type has are all found. -/
theorem findInitial_ok {db : Database} {className : String} {initial : List Initial}
    (declared : ∀ p ∈ initial, (db.chainMember? number .property p.name).isSome) :
    ∃ found, findInitial db number className initial = .ok found
      ∧ found.map Prod.snd = initial := by
  induction initial with
  | nil => exact ⟨[], rfl, rfl⟩
  | cons p rest ih =>
    obtain ⟨property, known⟩ := Option.isSome_iff_exists.mp (declared p List.mem_cons_self)
    obtain ⟨found, finds, same⟩ := ih fun q member => declared q (List.mem_cons_of_mem p member)
    refine ⟨(property, p) :: found, ?_, by rw [List.map_cons, same]⟩
    rw [findInitial, known, finds]
    rfl

/-- The new instance of a type. -/
def made (e : Entry) (rows : List (String × Slot)) : Instance :=
  { number := e.number, floating := e.startsFloating, properties := assignAll rows [] }

/-- The world in which an instance was constructed. -/
def constructed (w : World) (m : Memory) (e : Entry) (rows : List (String × Slot)) : World :=
  { w with
    memory := m
    store :=
      { w.store with
        instances := w.store.instances.insert w.memory.next (made e rows)
        created := w.store.created + 1
        held := .reference w.memory.next :: w.store.held } }

/-- Constructing an instance of a registered type that has all the initial properties. -/
theorem run_construct (calls : Calls) {t : Token} {e : Entry} {initial : List Initial}
    (registered : w.database.registered? e.number = some t) (known : w.database.entry? t = some e)
    (object : e.kind = .object) (fresh : w.store.instances.get? w.memory.next = none)
    (finds : findInitial w.database e.number e.shownName initial = .ok found) :
    ∃ rows m, Succeeds calls (construct e.number initial) w w.memory.next (constructed w m e rows)
      ∧ w.memory.Extends m
      ∧ List.Forall₂ (StoredAs w.database w.memory m) found rows := by
  let i : Instance := { number := e.number, floating := e.startsFloating }
  let w₁ := (w.createHeld e.number e.startsFloating).2
  have live : w₁.store.instances.get? w.memory.next = some i := by
    change (w.store.instances.insert w.memory.next i).get? w.memory.next = some i
    rw [Table.get?_insert _ fresh, if_pos rfl]
  obtain ⟨rows, m, ran, grown, stored⟩ :=
    run_storeAll calls found live
  have placed : w.memory.Extends w₁.memory := w.memory.extends_place [] World.instanceStorage
  refine ⟨rows, m, ?_, placed.trans grown, stored.imp fun _ _ same =>
    ⟨same.name, same.slot.mono placed (.refl _)⟩⟩
  refine succeeds_bind.mpr ⟨_, w, succeeds_lift.mpr (run_database.mpr ⟨rfl, rfl⟩), ?_⟩
  rw [registered]
  refine succeeds_bind.mpr ⟨e, w, succeeds_lift.mpr (run_entry.mpr ⟨known, rfl⟩), ?_⟩
  simp only [object, ne_eq, not_true_eq_false, if_false]
  refine succeeds_bind.mpr ⟨found, w, succeeds_except.mpr ⟨finds, rfl⟩, ?_⟩
  have created : (request (.create e.number e.startsFloating) : Program Address).run calls w
      = (.done w.memory.next, w₁) := run_request
  refine succeeds_bind.mpr ⟨w.memory.next, w₁, succeeds_lift.mpr created, ?_⟩
  refine succeeds_bind.mpr ⟨(), _, succeeds_lift.mpr ran, succeeds_pure.mpr ⟨rfl, ?_⟩⟩
  have set : (w.store.instances.insert w.memory.next i).set w.memory.next (made e rows)
      = w.store.instances.insert w.memory.next (made e rows) := Table.set_insert fresh
  simp only [filled, constructed, ← set]
  rfl

end Runtime

namespace Handle

variable {info : Token} {e : Entry} {i : Instance} {h : HandleId}

/-- The record of a handle that owns a reference to an instance. -/
def owning (info : Token) (a : Address) : HandleRecord :=
  { info := some info, attachment := some ⟨a, .retained⟩ }

/-- The world in which a handle took over the rest of a construction. -/
def adopted (w : World) (info : Token) (a : Address) (i : Instance) : World :=
  w.withStore
    { w.store with
      ledger := w.store.ledger.take info
      instances := w.store.instances.set a
        { i with references := i.references + 1, floating := false }
      handles := w.store.handles.insert w.store.nextHandle (owning info a)
      nextHandle := w.store.nextHandle + 1
      held := .handle w.store.nextHandle :: w.store.held }

theorem run_retained (live : w.store.instances.get? a = some i) (positive : 0 < a)
    (still : i.floating = false) :
    (retained (some info) a).run calls w = (.done w.store.nextHandle, adopted w info a i) := by
  have there : w.store.isLive a = true := by rw [Store.isLive, Table.contains, live]; rfl
  have opened : w.openHandle (some info) (some ⟨a, .retained⟩) none
      = (.done w.store.nextHandle, w.withStore (w.store.addHandle (owning info a)).2) :=
    if_pos there
  have claimed : (w.store.claim (.reference a)).claim (.entry info)
      = { w.store with
          ledger := w.store.ledger.take info
          instances := w.store.instances.set a { i with references := i.references + 1 } } := by
    simp only [Store.claim, live]
  have kept : ({ i with references := i.references + 1, floating := false } : Instance)
      = { i with references := i.references + 1 } := by rw [← still]
  rw [retained, if_neg (Nat.ne_of_gt positive)]
  refine run_request.trans (opened.trans (Prod.ext rfl ?_))
  have all : w.store.claimAll (owning info a).claims
      = (w.store.claim (.reference a)).claim (.entry info) := rfl
  simp only [Store.addHandle, all, claimed, adopted, kept]

/-- A new instance loses its floating reference to the handle. -/
theorem run_adopt (live : w.store.instances.get? a = some i) (positive : 0 < a) :
    Succeeds calls (do
      let i ← liveInstance a
      if i.floating then request (.sink a)
      retained (some info) a : Bridge HandleId) w w.store.nextHandle (adopted w info a i) := by
  refine succeeds_bind.mpr ⟨i, w, succeeds_lift.mpr (run_liveInstance.mpr ⟨live, rfl⟩), ?_⟩
  dsimp only
  by_cases floats : i.floating = true
  · rw [if_pos floats]
    let w₁ := w.setInstance a { i with floating := false }
    have sunk : (request (.sink a) : Program Unit).run calls w = (.done (), w₁) := by
      refine run_request.trans ?_
      simp only [World.answer, World.withInstance, live]
      rfl
    have there : w₁.store.instances.get? a = some { i with floating := false } := by
      change (w.store.instances.set a _).get? a = _
      rw [Table.get?_set, if_pos rfl, live, Option.map_some]
    refine succeeds_bind.mpr ⟨(), w₁, succeeds_lift.mpr sunk, succeeds_lift.mpr ?_⟩
    refine (run_retained there positive rfl).trans (Prod.ext rfl ?_)
    simp only [adopted, w₁, World.setInstance, World.withStore, Table.set_set]
  · rw [if_neg floats]
    exact succeeds_lift.mpr (run_retained live positive (Bool.eq_false_of_not_eq_true floats))

/-- What a construction leaves: a handle with the only reference to a new instance.  Nothing else
is counted, and there is only new storage. -/
structure Constructed (w w' : World) (info : Token) (e : Entry)
    (properties : List (String × Slot)) (a : Address) : Prop extends w.Steady w' where
  /-- The instance is new. -/
  fresh : w.store.instances.get? a = none
  /-- The handle is new. -/
  handle : w.store.handles.get? w.store.nextHandle = none
  /-- The counted things are as before, but for the instance, the handle and its claims. -/
  store : w'.store =
    { w.store with
      ledger := w'.store.ledger
      instances := w.store.instances.insert a
        { number := e.number, properties := properties }
      handles := w.store.handles.insert w.store.nextHandle (owning info a)
      created := w.store.created + 1
      nextHandle := w.store.nextHandle + 1
      held := .handle w.store.nextHandle :: w.store.held }
  /-- The handle refers to its type. -/
  ledger : ∀ t, w'.store.ledger.get t = w.store.ledger.get t + if t = info then 1 else 0

section Constructed

variable {properties : List (String × Slot)}

/-- The handle has the only reference to the instance, which does not float. -/
theorem Constructed.instance_eq (made : Constructed w w' info e properties a) :
    w'.store.instances.get? a
      = some
          { number := e.number, references := 1, floating := false, properties := properties } := by
  rw [made.store, Table.get?_insert _ made.fresh, if_pos rfl]

/-- Every other instance is as it was. -/
theorem Constructed.others (made : Constructed w w' info e properties a) {b : Address}
    (other : b ≠ a) : w'.store.instances.get? b = w.store.instances.get? b := by
  rw [made.store, Table.get?_insert _ made.fresh, if_neg other]

theorem Constructed.live (made : Constructed w w' info e properties a) :
    w'.store.live = w.store.live + 1 ∧ w'.store.created = w.store.created + 1
      ∧ w'.store.finalized = w.store.finalized := by
  refine ⟨?_, by rw [made.store], by rw [made.store]⟩
  rw [Store.live, made.store]
  exact Table.size_insert _ made.fresh _

end Constructed

/-- Giving back one of several references to an instance, and references to entries after it. -/
theorem release_reference {top : List Claim} {s : Store} (live : s.instances.get? a = some i)
    (several : 1 < i.references) (entries : ∀ c ∈ top, c.isEntry = true) :
    ∃ ledger : Tally, s.release (.reference a :: top)
        = ([], { s with
            ledger := ledger
            instances := s.instances.set a { i with references := i.references - 1 } })
      ∧ ∀ t, ledger.get t = s.ledger.get t - top.count (.entry t) := by
  obtain ⟨ledger, released, counts, _⟩ := World.release_entries entries
    { s with instances := s.instances.set a { i with references := i.references - 1 } }
  refine ⟨ledger, ?_, counts⟩
  rw [Store.release]
  split
  · next gone =>
    rw [live] at gone
    cases gone
  · next found =>
    rw [live] at found
    cases found
    rw [if_neg (Nat.not_le.mpr several)]
    exact released

/-- The counted things after a construction, before its temporaries are given back. -/
def heldStore (w : World) (ledger : Tally) (info : Token) (e : Entry)
    (rows : List (String × Slot)) (a : Address) (top : List Claim) : Store :=
  { w.store with
    ledger := ledger
    instances := w.store.instances.insert a
      { number := e.number, references := 2, properties := assignAll rows [] }
    handles := w.store.handles.insert w.store.nextHandle (owning info a)
    created := w.store.created + 1
    nextHandle := w.store.nextHandle + 1
    held := .handle w.store.nextHandle :: .reference a :: (top ++ w.store.held) }

theorem adopted_constructed {top : List Claim} {m : Memory} {rows : List (String × Slot)}
    (reading : w.Reading w₁ top) (fresh : w.store.instances.get? w₁.memory.next = none) :
    adopted (Runtime.constructed w₁ m e rows) info w₁.memory.next (Runtime.made e rows)
      = { w₁ with
          memory := m
          store := heldStore w (w₁.store.ledger.take info) info e rows w₁.memory.next top } := by
  have same := reading.store
  have set : (w.store.instances.insert w₁.memory.next (Runtime.made e rows)).set w₁.memory.next
        { number := e.number, references := 2, properties := assignAll rows [] }
      = w.store.instances.insert w₁.memory.next
        { number := e.number, references := 2, properties := assignAll rows [] } :=
    Table.set_insert fresh
  simp only [adopted, Runtime.constructed, World.withStore, heldStore]
  rw [same, ← set]
  rfl

/-- Giving the temporaries of a construction back leaves one reference, that of the handle. -/
theorem settle_constructed (info : Token) (e : Entry) (rows : List (String × Slot))
    {top : List Claim} {m : Memory} (reading : w.Reading w₁ top) (steady : w.Steady w₁)
    (fresh : w.store.instances.get? w₁.memory.next = none)
    (free : w.store.handles.get? w.store.nextHandle = none) (grown : w₁.memory.Extends m) :
    ∃ w', (adopted (Runtime.constructed w₁ m e rows) info w₁.memory.next
          (Runtime.made e rows)).settle w.store.held.length [.handle w.store.nextHandle]
        = (.done (), w')
      ∧ Constructed w w' info e (assignAll rows []) w₁.memory.next ∧ w'.memory = m := by
  let a := w₁.memory.next
  let s : Store :=
    { heldStore w (w₁.store.ledger.take info) info e rows a top with
      held := .handle w.store.nextHandle :: w.store.held }
  have live : s.instances.get? a
      = some { number := e.number, references := 2, properties := assignAll rows [] } := by
    change (w.store.instances.insert a _).get? a = _
    rw [Table.get?_insert _ fresh, if_pos rfl]
  obtain ⟨ledger, released, counts⟩ :=
    release_reference live (Nat.lt_succ_self 1) reading.entries
  have once : s.instances.set a { number := e.number, properties := assignAll rows [] }
      = w.store.instances.insert a { number := e.number, properties := assignAll rows [] } :=
    Table.set_insert fresh
  have parted : Store.part (.handle w.store.nextHandle :: .reference a :: top)
      [.handle w.store.nextHandle] = ([.handle w.store.nextHandle], .reference a :: top) := by
    simp [Store.part, Store.part_nil]
  rw [adopted_constructed reading fresh]
  refine ⟨{ w₁ with memory := m, store := { s with
      ledger := ledger
      instances := w.store.instances.insert a
        { number := e.number, properties := assignAll rows [] } } }, ?_,
    ⟨⟨?_, ?_, ?_⟩, fresh, free, rfl, fun t => ?_⟩, rfl⟩
  · rw [World.settle_append (.handle w.store.nextHandle :: .reference a :: top) rfl, parted, ← once]
    exact congrArg (fun r : List Address × Store =>
      (Outcome.ofFaults r.1, { w₁ with memory := m, store := r.2 })) released
  · dsimp only
    rw [steady.frame]
  · exact Nat.le_trans steady.next grown.next
  · exact fun b below =>
      (grown.cells b (Nat.lt_of_lt_of_le below steady.next)).trans (steady.cells b below)
  · have before := reading.ledger t
    have after := counts t
    change ledger.get t = (w₁.store.ledger.take info).get t - _ at after
    rw [Tally.get_take] at after
    change ledger.get t = _
    by_cases same : t = info
    · rw [if_pos same] at after ⊢
      omega
    · rw [if_neg same] at after ⊢
      omega

end Handle
end ObjectBridge
