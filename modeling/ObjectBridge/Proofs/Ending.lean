import Mathlib.Data.Fintype.Card
import Mathlib.Data.Fintype.EquivFin
import Mathlib.Data.Fintype.Sets
import Mathlib.Logic.Relation
import ObjectBridge.Proofs.Ledger

/-!
# The end of a session

When all variables and globals are dropped, everything that is still live is held by something that
is live: a handle by a younger handle or by the user data of a connection, a connection record by
an instance, and an instance by a handle.  Following the holders back from an instance leads to
another instance each time, so unless an instance is reachable from itself, nothing is live at all.
-/

namespace ObjectBridge

open Relation

namespace Store

/-- A live handle keeps another one. -/
def Keeps (s : Store) (younger older : HandleId) : Prop :=
  ∃ r, s.handles.get? younger = some r ∧ r.keeper = some older

/-- A connection of a live instance has a handle as its user data. -/
def Captures (s : Store) (a : Address) (h : HandleId) : Prop :=
  ∃ i, s.instances.get? a = some i ∧ ∃ connection ∈ i.connections, ∃ c relay,
    s.closures.get? connection.closure = some c ∧ c.reaction = .relay relay
      ∧ relay.userData = some (.handle h)

/-- A live handle owns a reference to an instance. -/
def Retains (s : Store) (h : HandleId) (a : Address) : Prop :=
  ∃ r, s.handles.get? h = some r ∧ r.attachment = some ⟨a, .retained⟩

/-- The user data of the connections of an instance keeps another instance alive. -/
def Reaches (s : Store) (a b : Address) : Prop :=
  ∃ h k, s.Captures a h ∧ ReflTransGen s.Keeps h k ∧ s.Retains k b

/-- No instance is reachable from itself. -/
def Acyclic (s : Store) : Prop := ∀ a, ¬TransGen s.Reaches a a

/-- No variable, no global and no temporary holds anything. -/
structure Rootless (s : Store) : Prop where
  /-- No variable is bound. -/
  bindings : s.bindings = []
  /-- No global is set. -/
  globals : s.globals = []
  /-- Nothing is held by temporaries. -/
  held : s.held = []

end Store

theorem Table.exists_of_weight_pos {α : Type} {f : α → Nat} {t : Table α} (some_weight : 0 < t.weight f) :
    ∃ key x, t.get? key = some x ∧ 0 < f x := by
  rw [weight_eq_sum] at some_weight
  obtain ⟨row, inside, positive⟩ : ∃ row ∈ t.rows, f row.2 ≠ 0 := by
    by_contra weightless
    refine Nat.ne_of_gt some_weight (List.sum_eq_zero_iff_forall_eq_nat.mpr fun n member => ?_)
    obtain ⟨row, inside, rfl⟩ := List.mem_map.mp member
    by_contra heavy
    exact weightless ⟨row, inside, heavy⟩
  exact ⟨row.1, row.2, get?_of_mem inside, Nat.pos_of_ne_zero positive⟩

theorem Table.mem_of_get? {α : Type} {t : Table α} {key : Nat} {x : α}
    (found : t.get? key = some x) : (key, x) ∈ t.rows := by
  have known : key ∈ t.rows.map Prod.fst := by
    by_contra unknown
    rw [get?, (find_eq_none_iff key t.rows).mpr unknown] at found
    cases found
  obtain ⟨row, member, rfl⟩ := List.mem_map.mp known
  have same := get?_of_mem member
  rw [found] at same
  cases same
  exact member

theorem Table.rows_eq_nil {α : Type} {t : Table α} (none : ∀ key, t.get? key = none) :
    t.rows = [] :=
  List.eq_nil_iff_forall_not_mem.mpr fun row member => by
    have found := get?_of_mem member
    rw [none] at found
    cases found

namespace Store

variable {s s' : Store} {next : Address}

/-- A live handle is held by a younger one or by the user data of a connection record. -/
theorem Accounted.handle_holder (books : s.Accounted next []) (rootless : s.Rootless)
    {h : HandleId} {r : HandleRecord} (live : s.handles.get? h = some r) :
    (∃ younger, s.Keeps younger h)
      ∨ ∃ c closure relay, s.closures.get? c = some closure ∧ closure.reaction = .relay relay
        ∧ relay.userData = some (.handle h) := by
  have count := books.counted (.handle h)
  have shares := (books.handles h r live).1
  have instances : s.instances.weight (fun i => i.claims.countP (· == .handle h)) = 0 :=
    Table.weight_eq_zero fun i => List.countP_eq_zero.mpr fun c member => by
      obtain ⟨connection, _, rfl⟩ := List.mem_map.mp member
      exact Bool.false_ne_true
  simp only [counts, live, holders, rootless.held, rootless.bindings, rootless.globals, valueClaims,
    instances, List.flatMap_nil, List.countP_nil, List.count_nil] at count
  by_cases kept : 0 < s.handles.weight fun r => r.claims.countP (· == .handle h)
  · obtain ⟨younger, q, found, claims⟩ := Table.exists_of_weight_pos kept
    obtain ⟨c, member, same⟩ := List.countP_pos_iff.mp claims
    rw [eq_of_beq same] at member
    rcases HandleRecord.mem_claims member with ⟨a, other, _⟩ | ⟨a, other, _⟩ | ⟨t, other, _⟩
      | ⟨k, equal, keeper⟩
    · cases other
    · cases other
    · cases other
    · cases equal
      exact .inl ⟨younger, q, found, keeper⟩
  · have captured : 0 < s.closures.weight fun c => c.reaction.claims.countP (· == .handle h) := by
      omega
    obtain ⟨c, closure, found, claims⟩ := Table.exists_of_weight_pos captured
    obtain ⟨d, member, same⟩ := List.countP_pos_iff.mp claims
    rw [eq_of_beq same] at member
    rcases Reaction.mem_claims member with ⟨t, other⟩ | ⟨k, same, relay, equal, data⟩
    · cases other
    · cases same
      exact .inr ⟨c, closure, relay, found, equal, data⟩

/-- A live connection record is that of a connection of a live instance. -/
theorem Accounted.closure_holder (books : s.Accounted next []) (rootless : s.Rootless)
    {c : ClosureId} {closure : Closure} (live : s.closures.get? c = some closure) :
    ∃ a i, s.instances.get? a = some i ∧ ∃ connection ∈ i.connections, connection.closure = c := by
  have count := books.counted (.closure c)
  have shares := (books.closures c closure live).1
  rw [holders_closure, rootless.held] at count
  simp only [counts, live, List.countP_nil, List.count_nil] at count
  obtain ⟨a, i, found, claims⟩ : ∃ a i, s.instances.get? a = some i
      ∧ 0 < i.claims.count (.closure c) := Table.exists_of_weight_pos (by
    simp only [namings] at count
    omega)
  obtain ⟨connection, member, equal⟩ := List.mem_map.mp (List.count_pos_iff.mp claims)
  exact ⟨a, i, found, connection, member, Claim.closure.inj equal⟩

/-- A live handle is kept alive by the user data of a connection of a live instance. -/
theorem Accounted.handle_captured (books : s.Accounted next []) (rootless : s.Rootless)
    {h : HandleId} {r : HandleRecord} (live : s.handles.get? h = some r) :
    ∃ a k, s.Captures a k ∧ ReflTransGen s.Keeps k h := by
  -- Handles that keep others are younger, and all are older than the next handle.
  induction bound : s.nextHandle - h using Nat.strong_induction_on generalizing h r with
  | _ n ih =>
    have older := (books.handles h r live).2.1
    rcases books.handle_holder rootless live with
      ⟨younger, q, found, keeper⟩ | ⟨c, closure, relay, found, equal, data⟩
    · have order := (books.handles younger q found).2
      have above := order.2 h keeper
      obtain ⟨a, k, captured, path⟩ := ih (s.nextHandle - younger)
        (bound ▸ Nat.sub_lt_sub_left older above) found rfl
      exact ⟨a, k, captured, path.tail ⟨q, found, keeper⟩⟩
    · obtain ⟨a, i, instance_, connection, member, named⟩ := books.closure_holder rootless found
      exact ⟨a, h, ⟨i, instance_, connection, member, closure, relay, named ▸ found, equal, data⟩,
        .refl⟩

/-- A live instance that no direct call refers to is kept alive by another live instance. -/
theorem Accounted.instance_reached (books : s.Accounted next []) (rootless : s.Rootless)
    (balanced : ∀ a, s.instanceBalance.get a = 0) {a : Address} {i : Instance}
    (live : s.instances.get? a = some i) :
    ∃ b, s.isLive b = true ∧ s.Reaches b a := by
  have count := books.counted (.reference a)
  have references := (books.instances a i live).1
  rw [holders_reference, rootless.held] at count
  simp only [counts, live, balanced, List.countP_nil, List.count_nil] at count
  obtain ⟨row, member, retained⟩ : ∃ row ∈ s.handles.rows,
      decide (row.2.attachment = some ⟨a, .retained⟩) = true := List.countP_pos_iff.mp (by
    simp only [retainers] at count
    omega)
  have found := Table.get?_of_mem member
  obtain ⟨b, k, captured, path⟩ := books.handle_captured rootless found
  obtain ⟨j, alive, connected⟩ := captured
  exact ⟨b, by rw [isLive, Table.contains, alive]; rfl, k, row.1, ⟨j, alive, connected⟩, path, row.2,
    found, of_decide_eq_true retained⟩

/-- Among finitely many instances, none of which is reachable from itself, reaching is well
founded. -/
theorem Acyclic.wellFounded (acyclic : s.Acyclic) (among : List Address) :
    WellFounded fun x y : { a // a ∈ among } => TransGen s.Reaches x y :=
  have : Std.Irrefl fun x y : { a // a ∈ among } => TransGen s.Reaches x y :=
    ⟨fun x => acyclic x⟩
  have : IsTrans { a // a ∈ among } fun x y => TransGen s.Reaches x y :=
    ⟨fun _ _ _ first second => first.trans second⟩
  Finite.wellFounded_of_trans_of_irrefl _

/-- Where no instance is reachable from itself, nothing is live without roots. -/
theorem Accounted.nothing_live (books : s.Accounted next []) (rootless : s.Rootless)
    (balanced : ∀ a, s.instanceBalance.get a = 0) (acyclic : s.Acyclic) :
    (∀ a, s.instances.get? a = none) ∧ (∀ c, s.closures.get? c = none)
      ∧ ∀ h, s.handles.get? h = none := by
  have instances (a : Address) : s.instances.get? a = none := by
    have unreached (x : { a // a ∈ s.instances.rows.map Prod.fst }) : False := by
      induction x using (acyclic.wellFounded (s.instances.rows.map Prod.fst)).induction with
      | _ x ih =>
        have present : s.instances.get? x.1 ≠ none := fun absent =>
          (Table.find_eq_none_iff x.1 s.instances.rows).mp absent x.2
        obtain ⟨i, live⟩ := Option.ne_none_iff_exists'.mp present
        obtain ⟨b, alive, reached⟩ := books.instance_reached rootless balanced live
        rw [isLive, Table.contains_eq, decide_eq_true_eq] at alive
        exact ih ⟨b, alive⟩ (.single reached)
    exact (Table.find_eq_none_iff a s.instances.rows).mpr fun member => unreached ⟨a, member⟩
  have closures (c : ClosureId) : s.closures.get? c = none := by
    by_contra present
    obtain ⟨closure, live⟩ := Option.ne_none_iff_exists'.mp present
    obtain ⟨a, i, found, _⟩ := books.closure_holder rootless live
    rw [instances a] at found
    cases found
  refine ⟨instances, closures, fun h => ?_⟩
  by_contra present
  obtain ⟨r, live⟩ := Option.ne_none_iff_exists'.mp present
  obtain ⟨a, k, ⟨i, found, _⟩, _⟩ := books.handle_captured rootless live
  rw [instances a] at found
  cases found

/-- What is live in a later store was live before, and holds what it held. -/
structure Shrunk (s s' : Store) : Prop where
  /-- Handles stand for what they stood for. -/
  handles : ∀ h r', s'.handles.get? h = some r' → ∃ r, s.handles.get? h = some r
    ∧ r'.attachment = r.attachment ∧ r'.keeper = r.keeper
  /-- Connection records answer as they did. -/
  closures : ∀ c r', s'.closures.get? c = some r' → ∃ r, s.closures.get? c = some r
    ∧ r'.reaction = r.reaction
  /-- Instances have the connections that they had. -/
  instances : ∀ a i', s'.instances.get? a = some i' → ∃ i, s.instances.get? a = some i
    ∧ i'.connections = i.connections

/-- Only the tables of live things matter. -/
theorem shrunk_of_eq (handles : s'.handles = s.handles) (closures : s'.closures = s.closures)
    (instances : s'.instances = s.instances) : s.Shrunk s' :=
  ⟨fun _ r' live => ⟨r', handles ▸ live, rfl, rfl⟩, fun _ r' live => ⟨r', closures ▸ live, rfl⟩,
    fun _ i' live => ⟨i', instances ▸ live, rfl⟩⟩

theorem Shrunk.refl (s : Store) : s.Shrunk s := shrunk_of_eq rfl rfl rfl

theorem Shrunk.trans {s₁ s₂ s₃ : Store} (first : s₁.Shrunk s₂) (second : s₂.Shrunk s₃) :
    s₁.Shrunk s₃ where
  handles h r'' live := by
    obtain ⟨r', live', attachment', keeper'⟩ := second.handles h r'' live
    obtain ⟨r, live, attachment, keeper⟩ := first.handles h r' live'
    exact ⟨r, live, attachment'.trans attachment, keeper'.trans keeper⟩
  closures c r'' live := by
    obtain ⟨r', live', reaction'⟩ := second.closures c r'' live
    obtain ⟨r, live, reaction⟩ := first.closures c r' live'
    exact ⟨r, live, reaction'.trans reaction⟩
  instances a i'' live := by
    obtain ⟨i', live', connections'⟩ := second.instances a i'' live
    obtain ⟨i, live, connections⟩ := first.instances a i' live'
    exact ⟨i, live, connections'.trans connections⟩

/-- Giving claims back only ends things. -/
theorem release_shrunk (claims : List Claim) (s : Store) : s.Shrunk (s.release claims).2 := by
  fun_induction Store.release claims s with
  | case1 s => exact .refl s
  | case2 s t rest ih =>
    refine Shrunk.trans ?_ ih
    exact shrunk_of_eq rfl rfl rfl
  | case3 s a rest ih =>
    refine Shrunk.trans ?_ ih
    exact shrunk_of_eq rfl rfl rfl
  | case4 s h rest gone ih => exact ih
  | case5 s h rest r live last ih =>
    refine Shrunk.trans ?_ ih
    exact
      { Shrunk.refl s with
        handles := fun k r' found => ⟨r', Table.get?_of_erase found, rfl, rfl⟩ }
  | case6 s h rest r live shared ih =>
    refine Shrunk.trans ?_ ih
    refine { Shrunk.refl s with handles := fun k r' found => ?_ }
    rcases Table.get?_of_set found with ⟨rfl, rfl⟩ | old
    · exact ⟨r, live, rfl, rfl⟩
    · exact ⟨r', old, rfl, rfl⟩
  | case7 s c rest gone ih => exact ih
  | case8 s c rest r live last ih =>
    refine Shrunk.trans ?_ ih
    exact
      { Shrunk.refl s with
        closures := fun k r' found => ⟨r', Table.get?_of_erase found, rfl⟩ }
  | case9 s c rest r live shared ih =>
    refine Shrunk.trans ?_ ih
    refine { Shrunk.refl s with closures := fun k r' found => ?_ }
    rcases Table.get?_of_set found with ⟨rfl, rfl⟩ | old
    · exact ⟨r, live, rfl⟩
    · exact ⟨r', old, rfl⟩
  | case10 s a rest gone faults s' equal ih => rwa [equal] at ih
  | case11 s a rest i live last ih =>
    refine Shrunk.trans ?_ ih
    exact
      { Shrunk.refl s with
        instances := fun b i' found => ⟨i', Table.get?_of_erase found, rfl⟩ }
  | case12 s a rest i live shared ih =>
    refine Shrunk.trans ?_ ih
    refine { Shrunk.refl s with instances := fun b i' found => ?_ }
    rcases Table.get?_of_set found with ⟨rfl, rfl⟩ | old
    · exact ⟨i, live, rfl⟩
    · exact ⟨i', old, rfl⟩

/-- An instance that is reached later was reached before. -/
theorem Shrunk.reaches (shrunk : s.Shrunk s') {a b : Address} (reached : s'.Reaches a b) :
    s.Reaches a b := by
  obtain ⟨h, k, ⟨i', live, connection, member, c', relay, found, reaction, data⟩, path, r', kept,
    retained⟩ := reached
  obtain ⟨i, alive, connections⟩ := shrunk.instances a i' live
  obtain ⟨c, recorded, same⟩ := shrunk.closures _ c' found
  obtain ⟨r, held, attachment, _⟩ := shrunk.handles k r' kept
  refine ⟨h, k, ⟨i, alive, connection, connections ▸ member, c, relay, recorded, same ▸ reaction,
    data⟩, ReflTransGen.mono (fun younger older keeps => ?_) _ _ path, r, held, attachment ▸ retained⟩
  obtain ⟨q', there, keeper⟩ := keeps
  obtain ⟨q, before, _, same⟩ := shrunk.handles younger q' there
  exact ⟨q, before, same ▸ keeper⟩

theorem Shrunk.acyclic (shrunk : s.Shrunk s') (acyclic : s.Acyclic) : s'.Acyclic :=
  fun a loop => acyclic a (TransGen.mono (fun _ _ => shrunk.reaches) _ _ loop)

end Store

/-- What dropping names did to a world. -/
structure World.Dropped (w w' : World) : Prop where
  /-- The world is orderly. -/
  orderly : w'.Orderly
  /-- What is still live was live before. -/
  shrunk : w.store.Shrunk w'.store
  /-- The temporaries stay. -/
  held : w'.store.held = w.store.held
  /-- The balances of the instances stay. -/
  instanceBalance : w'.store.instanceBalance = w.store.instanceBalance
  /-- The balances of the entries stay. -/
  entryBalance : w'.store.entryBalance = w.store.entryBalance

namespace World

variable {w : World}

theorem Dropped.trans {w₁ w₂ w₃ : World} (first : w₁.Dropped w₂) (second : w₂.Dropped w₃) :
    w₁.Dropped w₃ :=
  ⟨second.orderly, first.shrunk.trans second.shrunk, second.held.trans first.held,
    second.instanceBalance.trans first.instanceBalance,
    second.entryBalance.trans first.entryBalance⟩

theorem Orderly.dropped_unbind (orderly : w.Orderly) (name : String) :
    w.Dropped (w.unbind name).2 := by
  refine ⟨(orderly.unbind name).orderly, Store.Shrunk.trans ?_ (Store.release_shrunk _ _),
    Store.release_held _ _, Store.release_instanceBalance _ _, Store.release_entryBalance _ _⟩
  exact Store.shrunk_of_eq rfl rfl rfl

theorem Orderly.dropped_dropGlobal (orderly : w.Orderly) (name : String) :
    w.Dropped (w.dropGlobal name).2 := by
  refine ⟨(orderly.dropGlobal name).orderly, Store.Shrunk.trans ?_ (Store.release_shrunk _ _),
    Store.release_held _ _, Store.release_instanceBalance _ _, Store.release_entryBalance _ _⟩
  exact Store.shrunk_of_eq rfl rfl rfl

end World

namespace Session

theorem dropAll_dropped {drop : World → String → Outcome Bool × World}
    (each : ∀ (w : World) name, w.Orderly → w.Dropped (drop w name).2) (names : List String) {w : World}
    (orderly : w.Orderly) : w.Dropped (dropAll drop names w).2 := by
  induction names generalizing w with
  | nil => exact ⟨orderly, .refl _, rfl, rfl, rfl⟩
  | cons name rest ih =>
    have first := each w name orderly
    exact first.trans (ih first.orderly)

/-- Dropping each of some names takes them all away. -/
theorem dropAll_forget {drop : World → String → Outcome Bool × World}
    (values : World → List (String × Value))
    (each : ∀ w name, values (drop w name).2 = forget name (values w)) (names : List String)
    (w : World) :
    values (dropAll drop names w).2 = (values w).filter fun row => row.1 ∉ names := by
  induction names generalizing w with
  | nil => simp [dropAll]
  | cons name rest ih =>
    refine (ih (drop w name).2).trans ?_
    rw [each, forget, List.filter_filter]
    refine List.filter_congr fun row _ => ?_
    simp [Bool.and_comm]

/-- Dropping all names leaves none. -/
theorem dropAll_empty {drop : World → String → Outcome Bool × World}
    (values : World → List (String × Value))
    (each : ∀ w name, values (drop w name).2 = forget name (values w)) {names : List String}
    {w : World} (all : ∀ row ∈ values w, row.1 ∈ names) : values (dropAll drop names w).2 = [] := by
  rw [dropAll_forget values each]
  exact List.filter_eq_nil_iff.mpr fun row member kept => of_decide_eq_true kept (all row member)

/-- Dropping names keeps what each drop keeps. -/
theorem dropAll_kept {β : Type} (f : World → β) {drop : World → String → Outcome Bool × World}
    (each : ∀ w name, f (drop w name).2 = f w) (names : List String) (w : World) :
    f (dropAll drop names w).2 = f w := by
  induction names generalizing w with
  | nil => rfl
  | cons name rest ih => exact (ih (drop w name).2).trans (each w name)

/-- After the variables and the globals were dropped, nothing has a root. -/
theorem dropped_rootless {w : World} (orderly : w.Orderly) (idle : w.store.held = []) :
    w.Dropped (dropGlobals (dropVariables w).2).2
      ∧ (dropGlobals (dropVariables w).2).2.store.Rootless := by
  have first : w.Dropped (dropVariables w).2 :=
    dropAll_dropped (fun _ name orderly => orderly.dropped_unbind name) _ orderly
  have second : (dropVariables w).2.Dropped (dropGlobals (dropVariables w).2).2 :=
    dropAll_dropped (fun _ name orderly => orderly.dropped_dropGlobal name) _ first.orderly
  have unbound : (dropVariables w).2.store.bindings = [] :=
    dropAll_empty (fun w => w.store.bindings) (fun _ _ => Store.release_bindings _ _)
      fun row member => List.mem_map_of_mem member
  refine ⟨first.trans second, ?_, ?_, ?_⟩
  · exact (dropAll_kept (fun w => w.store.bindings) (fun _ _ => Store.release_bindings _ _) _
      _).trans unbound
  · exact dropAll_empty (fun w => w.store.globals) (fun _ _ => Store.release_globals _ _)
      fun row member => List.mem_mergeSort.mpr (List.mem_map_of_mem member)
  · exact (second.held.trans first.held).trans idle

/-- If direct calls of a session gave back every reference to an instance that they took, and no
instance is reachable from itself through the user data of connections, then nothing that the
session made is live after its variables and globals are dropped, and the only references to
entries that remain are those that direct questions took and did not give back. -/
theorem nothing_remains (options : Options) (steps : List Script.Step)
    (balanced : ∀ a,
      (advanceAll depthLimit steps (start options)).2.store.instanceBalance.get a = 0)
    (acyclic : (advanceAll depthLimit steps (start options)).2.store.Acyclic) :
    (run options steps).totals.live = 0
      ∧ (run options steps).totals.created = (run options steps).totals.finalized
      ∧ (run options steps).totals.entryReferences
        = (advanceAll depthLimit steps (start options)).2.store.entryBalance.total := by
  obtain ⟨orderly, idle⟩ := between_idle depthLimit steps (start_orderly options) rfl _
    (last_mem_between depthLimit steps (start options))
  obtain ⟨dropped, rootless⟩ := dropped_rootless orderly idle
  have books := dropped.orderly.books
  obtain ⟨noInstance, _, noHandle⟩ := books.nothing_live rootless
    (dropped.instanceBalance ▸ balanced) (dropped.shrunk.acyclic acyclic)
  have instances := Table.rows_eq_nil noInstance
  have handles := Table.rows_eq_nil noHandle
  have live : (run options steps).totals.live = 0 := congrArg List.length instances
  have made := books.made
  have total := books.ledger_total rootless.held
  rw [dropped.entryBalance] at total
  refine ⟨live, ?_, ?_⟩
  · change (run options steps).totals.created
      = (run options steps).totals.live + (run options steps).totals.finalized at made
    rw [made, live, Nat.zero_add]
  · have ended : (dropGlobals (dropVariables
        (advanceAll depthLimit steps (start options)).2).2).2.store.ledger.total
        = (advanceAll depthLimit steps (start options)).2.store.entryBalance.total := by
      simpa [Store.typed, Store.relays, Store.connections, instances, handles] using total
    exact ended

/-- An instance whose connection captures a handle on another instance. -/
def sampleChain : List Script.Step :=
  [.declareNamespace "Demo" "1.0",
    .declare (.object "Demo" "Widget" none false) (some "Widget"), sampleSignal,
    .makeInstance "Widget" "first", .makeInstance "Widget" "second",
    .connect "first" "changed" (.named "f") (some (.variable "second"))]

/-- The world after the chain was made. -/
def sampleChainEnd : World := (advanceAll depthLimit sampleChain (start {})).2

/-- Only the first instance of the chain reaches another, and that one is not itself. -/
theorem sampleChain_acyclic : sampleChainEnd.store.Acyclic := by
  have unkept : ∀ row ∈ sampleChainEnd.store.handles.rows, row.2.keeper = none := by
    decide +kernel
  have captured : ∀ row ∈ sampleChainEnd.store.closures.rows, row.2.relay?.bind Relay.userData
      = some (.handle 2) := by decide +kernel
  have retained : ∀ row ∈ sampleChainEnd.store.handles.rows, row.1 = 2 →
      ∀ i ∈ sampleChainEnd.store.instances.get? row.2.address, i.connections = [] := by
    decide +kernel
  have ends {a b : Address} (reached : sampleChainEnd.store.Reaches a b) :
      (∃ i ∈ sampleChainEnd.store.instances.get? a, i.connections ≠ [])
        ∧ ∀ i ∈ sampleChainEnd.store.instances.get? b, i.connections = [] := by
    obtain ⟨h, k, ⟨i, live, connection, member, c, relay, found, reaction, data⟩, path, r, kept,
      attachment⟩ := reached
    refine ⟨⟨i, live, List.ne_nil_of_mem member⟩, ?_⟩
    have last : h = k := by
      rcases ReflTransGen.cases_head path with same | ⟨k', ⟨q, younger, keeper⟩, _⟩
      · exact same
      · have none_kept := unkept _ (Table.mem_of_get? younger)
        rw [keeper] at none_kept
        cases none_kept
    have named := captured _ (Table.mem_of_get? found)
    rw [Closure.relay?, reaction, Option.bind_some, data] at named
    cases named
    cases last
    have bare := retained _ (Table.mem_of_get? kept) rfl
    rwa [HandleRecord.address, attachment] at bare
  intro a loop
  obtain ⟨b, first, _⟩ := TransGen.head'_iff.mp loop
  obtain ⟨c, _, last⟩ := TransGen.tail'_iff.mp loop
  obtain ⟨i, live, connected⟩ := (ends first).1
  exact connected ((ends last).2 i live)

theorem nothing_remains_chain :
    sampleChainEnd.store.live = 2
      ∧ (run {} sampleChain).totals.live = 0
      ∧ (run {} sampleChain).totals.created = (run {} sampleChain).totals.finalized
      ∧ (run {} sampleChain).totals.entryReferences = sampleChainEnd.store.entryBalance.total := by
  refine ⟨by decide +kernel, nothing_remains {} sampleChain (fun a => ?_) sampleChain_acyclic⟩
  have settled : sampleChainEnd.store.instanceBalance = {} := by decide +kernel
  exact congrArg (Tally.get · a) settled

/-- A direct question whose reference is not given back. -/
def sampleQuestion : List Script.Step :=
  [.declareNamespace "Demo" "1.0",
    .declare (.object "Demo" "Widget" none false) (some "Widget"),
    .query (.existing "Widget") .take]

/-- A reference to an entry that a direct question took remains, although no instance does. -/
theorem question_remains :
    (∀ a, (advanceAll depthLimit sampleQuestion (start {})).2.store.instanceBalance.get a = 0)
      ∧ (advanceAll depthLimit sampleQuestion (start {})).2.store.Acyclic
      ∧ (run {} sampleQuestion).totals.entryReferences = 1 := by
  have settled : (advanceAll depthLimit sampleQuestion (start {})).2.store.instanceBalance = {} := by
    decide +kernel
  have instances : (advanceAll depthLimit sampleQuestion (start {})).2.store.instances.rows = [] := by
    decide +kernel
  refine ⟨fun a => congrArg (Tally.get · a) settled, fun a loop => ?_, by decide +kernel⟩
  obtain ⟨b, ⟨h, k, ⟨i, live, _⟩, _⟩, _⟩ := TransGen.head'_iff.mp loop
  rw [Table.get?, instances] at live
  cases live

end Session
end ObjectBridge
