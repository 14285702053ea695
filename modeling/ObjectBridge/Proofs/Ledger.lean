import ObjectBridge.Proofs.References

/-!
# References to entries

Between the steps of a session nothing is held by temporaries, so every reference to an entry is
one that a direct question took, that of a live handle, or that of the record of a connection.  A
record lives exactly as long as the connection that names it: nothing else holds a share of it.
-/

namespace ObjectBridge

open Program Descriptor

/-- The entries that the record of a connection refers to. -/
def Relay.entries (r : Relay) : List Token := r.signal :: r.emitterType :: r.argumentTypes

/-- The host function that a connection record calls, with what it is given. -/
def Closure.relay? (c : Closure) : Option Relay :=
  match c.reaction with
  | .fixed _ => none
  | .relay r => some r

namespace Store

/-- The number of the live handles that an entry types. -/
def typedBy (s : Store) (t : Token) : Nat :=
  s.handles.rows.countP fun row => row.2.info = some t

/-- The number of the live handles that are typed by an entry at all. -/
def typed (s : Store) : Nat := s.handles.rows.countP fun row => row.2.info.isSome

/-- The connections of the live instances. -/
def connections (s : Store) : List Connection :=
  s.instances.rows.flatMap fun row => row.2.connections

/-- The records of the connections of the live instances that call host functions. -/
def relays (s : Store) : List Relay :=
  s.connections.filterMap fun c => (s.closures.get? c.closure).bind Closure.relay?

end Store

namespace Table

variable {α : Type}

theorem get?_of_mem {t : Table α} {row : Nat × α} (member : row ∈ t.rows) :
    t.get? row.1 = some row.2 := by
  have distinct := t.distinct
  rw [get?]
  generalize t.rows = rows at member distinct
  induction rows with
  | nil => contradiction
  | cons first rest ih =>
    obtain ⟨k, x⟩ := first
    rw [List.map_cons, List.nodup_cons] at distinct
    rcases List.mem_cons.mp member with rfl | later
    · simp [find]
    · have different : k ≠ row.1 := fun same =>
        distinct.1 (same ▸ List.mem_map.mpr ⟨row, later, rfl⟩)
      simp only [find, different, if_false]
      exact ih later distinct.2

theorem contains_eq (t : Table α) (key : Nat) :
    t.contains key = decide (key ∈ t.rows.map Prod.fst) := by
  have absent := find_eq_none_iff key t.rows
  rw [contains, get?]
  cases found : find key t.rows with
  | none => simpa [found] using absent
  | some x => simpa [found] using absent

theorem count_keys (t : Table α) (key : Nat) :
    (t.rows.map Prod.fst).count key = if t.contains key then 1 else 0 := by
  simp only [t.distinct.count, contains_eq, decide_eq_true_eq]

/-- A weight is a sum over the numbers of the entries. -/
theorem weight_eq_sum_keys (f : α → Nat) (t : Table α) :
    t.weight f = ((t.rows.map Prod.fst).map fun key => ((t.get? key).map f).getD 0).sum := by
  rw [weight_eq_sum, List.map_map]
  refine congrArg List.sum (List.map_congr_left fun row member => ?_)
  simp [get?_of_mem member]

end Table

namespace Store

/-- Entries are held by temporaries, handles and connection records. -/
theorem holders_of_entries (s : Store) {p : Claim → Bool} (only : ∀ c, p c = true → c.isEntry = true) :
    s.holders p = s.held.countP p + s.handles.weight (fun r => (entryClaims r.info).countP p)
      + s.closures.weight (fun c => c.reaction.claims.countP p) := by
  have handle (h : HandleId) : p (.handle h) = false := Bool.eq_false_iff.mpr fun holds =>
    absurd (only _ holds) Bool.false_ne_true
  have reference (a : Address) : p (.reference a) = false := Bool.eq_false_iff.mpr fun holds =>
    absurd (only _ holds) Bool.false_ne_true
  have block (a : Address) : p (.block a) = false := Bool.eq_false_iff.mpr fun holds =>
    absurd (only _ holds) Bool.false_ne_true
  have handles (r : HandleRecord) : r.claims.countP p = (entryClaims r.info).countP p := by
    obtain ⟨info, attachment, keeper, shares⟩ := r
    simp only [HandleRecord.claims, List.countP_append]
    rcases attachment with _ | ⟨a, _ | _ | _⟩ <;> cases keeper <;>
      simp [handle, reference, block]
  have instances : s.instances.weight (fun i => i.claims.countP p) = 0 :=
    Table.weight_eq_zero fun i => List.countP_eq_zero.mpr fun c member holds => by
      obtain ⟨connection, _, rfl⟩ := List.mem_map.mp member
      exact absurd (only _ holds) Bool.false_ne_true
  simp only [holders, countP_valueClaims handle, handles, instances]
  omega

/-- Connection records are held by temporaries and connections. -/
theorem holders_closure (s : Store) (c : ClosureId) :
    s.holders (· == .closure c) = s.held.countP (· == .closure c) + s.namings c := by
  have handles : s.handles.weight (fun r => r.claims.countP (· == .closure c)) = 0 := by
    refine Table.weight_eq_zero fun r => List.countP_eq_zero.mpr fun d member => ?_
    rcases HandleRecord.mem_claims member with ⟨a, rfl, _⟩ | ⟨a, rfl, _⟩ | ⟨t, rfl, _⟩ | ⟨k, rfl, _⟩ <;>
      exact Bool.false_ne_true
  have closures : s.closures.weight (fun r => r.reaction.claims.countP (· == .closure c)) = 0 := by
    refine Table.weight_eq_zero fun r => List.countP_eq_zero.mpr fun d member => ?_
    rcases Reaction.mem_claims member with ⟨t, rfl⟩ | ⟨h, rfl, _⟩ <;> exact Bool.false_ne_true
  simp only [holders, countP_valueClaims (p := (· == .closure c)) fun _ => rfl, handles, closures,
    namings, List.count]
  omega

theorem namings_eq_count (s : Store) (c : ClosureId) :
    s.namings c = (s.connections.map Connection.closure).count c := by
  have injective : Function.Injective Claim.closure := fun _ _ => Claim.closure.inj
  have claims (i : Instance) :
      i.claims.count (.closure c) = (i.connections.map Connection.closure).count c := by
    rw [← List.count_map_of_injective _ _ injective, List.map_map]
    rfl
  rw [namings, Table.weight_eq_sum, connections, List.map_flatMap, List.count_flatMap]
  simp only [claims, Function.comp_def]

/-- While nothing is held by temporaries, the connection records are those of the connections of
live instances, each named once. -/
theorem Accounted.connections_perm {s : Store} {next : Address} (books : s.Accounted next [])
    (idle : s.held = []) :
    (s.connections.map Connection.closure).Perm (s.closures.rows.map Prod.fst) := by
  refine List.perm_iff_count.mpr fun c => ?_
  have named := books.named c
  have count := books.counted (.closure c)
  rw [holders_closure, idle] at count
  rw [← namings_eq_count, Table.count_keys]
  cases found : s.closures.get? c with
  | none =>
    simp only [Table.contains, found, Option.isSome_none] at named ⊢
    exact Nat.le_zero.mp named
  | some r =>
    have shared := (books.closures c r found).1
    simp only [counts, Table.contains, found, Option.isSome_some, if_true, List.countP_nil,
      List.count_nil] at named count ⊢
    omega

theorem sum_filterMap {α β : Type} (f : β → Nat) (g : α → Option β) (items : List α) :
    ((items.filterMap g).map f).sum = (items.map fun x => ((g x).map f).getD 0).sum := by
  induction items with
  | nil => rfl
  | cons x rest ih =>
    cases found : g x with
    | none => simp [found, ih]
    | some y => simp [found, ih]

/-- A sum over the connection records of host functions is one over the connections of live
instances. -/
theorem Accounted.weight_closures {s : Store} {next : Address} (books : s.Accounted next [])
    (idle : s.held = []) (f : Relay → Nat) :
    s.closures.weight (fun c => (c.relay?.map f).getD 0) = (s.relays.map f).sum := by
  rw [Table.weight_eq_sum_keys, relays, sum_filterMap,
    ← ((books.connections_perm idle).map _).sum_nat, List.map_map]
  refine congrArg List.sum (List.map_congr_left fun connection _ => ?_)
  cases found : s.closures.get? connection.closure with
  | none => simp [found]
  | some r => simp [found]

/-- The entries that a connection record holds are those of its relay. -/
theorem countP_reaction {p : Claim → Bool} (only : ∀ c, p c = true → c.isEntry = true)
    (c : Closure) :
    c.reaction.claims.countP p
      = (c.relay?.map fun r => (r.entries.map Claim.entry).countP p).getD 0 := by
  obtain ⟨reaction, shares⟩ := c
  cases reaction with
  | fixed reply => rfl
  | relay r =>
    have handle (h : HandleId) : p (.handle h) = false := Bool.eq_false_iff.mpr fun holds =>
      absurd (only _ holds) Bool.false_ne_true
    have data (v : Value) : v.claims.countP p = 0 := by
      cases v with
      | handle h => simp [Value.claims, handle]
      | _ => rfl
    simp only [Reaction.claims, Closure.relay?, Relay.entries, List.countP_append, List.map_cons,
      List.countP_cons, List.countP_nil, Option.map_some, Option.getD_some]
    cases r.userData with
    | none =>
      simp only [List.countP_nil]
      omega
    | some v =>
      simp only [data v]
      omega

/-- While nothing is held by temporaries, an entry is held by the handles that it types and the
connection records that refer to it. -/
theorem Accounted.holders_entries {s : Store} {next : Address} (books : s.Accounted next [])
    (idle : s.held = []) {p : Claim → Bool} (only : ∀ c, p c = true → c.isEntry = true) :
    s.holders p = s.handles.weight (fun r => (entryClaims r.info).countP p)
      + (s.relays.map fun r => (r.entries.map Claim.entry).countP p).sum := by
  rw [holders_of_entries s only, idle, ← books.weight_closures idle]
  simp only [List.countP_nil, countP_reaction only, Nat.zero_add]

theorem typedBy_eq_weight (s : Store) (t : Token) :
    s.handles.weight (fun r => (entryClaims r.info).countP (· == .entry t)) = s.typedBy t := by
  rw [typedBy, ← Table.weight_ite (fun r : HandleRecord => decide (r.info = some t))]
  refine congrArg (Table.weight · s.handles) (funext fun r => ?_)
  cases r.info <;> simp [entryClaims]

theorem typed_eq_weight (s : Store) :
    s.handles.weight (fun r => (entryClaims r.info).countP Claim.isEntry) = s.typed := by
  rw [typed, ← Table.weight_ite (fun r : HandleRecord => r.info.isSome)]
  refine congrArg (Table.weight · s.handles) (funext fun r => ?_)
  cases r.info <;> simp [entryClaims, Claim.isEntry]

/-- The references to an entry that were taken and not given back. -/
theorem Accounted.ledger_get {s : Store} {next : Address} (books : s.Accounted next [])
    (idle : s.held = []) (t : Token) :
    s.ledger.get t = s.entryBalance.get t
      + (s.typedBy t + (s.relays.map fun r => r.entries.count t).sum : Nat) := by
  have count := books.counted (.entry t)
  have injective : Function.Injective Claim.entry := fun _ _ => Claim.entry.inj
  have entries (r : Relay) : (r.entries.map Claim.entry).countP (· == .entry t)
      = r.entries.count t := List.count_map_of_injective _ _ injective t
  rw [books.holders_entries idle fun c same => by rw [eq_of_beq same]; rfl, typedBy_eq_weight]
    at count
  simpa only [counts, entries, List.count_nil, Nat.add_zero] using count

/-- The references to entries that were taken and not given back, of all entries. -/
theorem Accounted.ledger_total {s : Store} {next : Address} (books : s.Accounted next [])
    (idle : s.held = []) :
    s.ledger.total = s.entryBalance.total
      + (s.typed + (s.relays.map fun r => 2 + r.argumentTypes.length).sum : Nat) := by
  have total := books.total
  have entries (r : Relay) : (r.entries.map Claim.entry).countP Claim.isEntry
      = 2 + r.argumentTypes.length := by
    rw [List.countP_eq_length.mpr fun c member => by
      obtain ⟨t, _, rfl⟩ := List.mem_map.mp member
      rfl]
    simp only [Relay.entries, List.length_map, List.length_cons]
    omega
  rw [books.holders_entries idle fun c entry => entry, typed_eq_weight] at total
  simpa only [entries, List.countP_nil, Nat.add_zero] using total

theorem part_nil (claims : List Claim) : part claims [] = ([], claims) := by
  induction claims with
  | nil => rfl
  | cons c rest ih => simp [part, ih]

end Store

/-- Giving all temporaries back leaves none. -/
theorem World.settle_held (w : World) : (w.settle 0 []).2.store.held = [] := by
  simp only [settle, Store.part_nil]
  exact (Store.release_held _ _).trans (by simp [withStore])

namespace Session

/-- The worlds before, between and after the steps of a session itself. -/
def between (depth : Nat) : List Script.Step → World → List World
  | [], w => [w]
  | step :: rest, w => w :: between depth rest (advance depth step w).2

/-- A step of the session itself leaves no temporaries. -/
theorem advance_idle (depth : Nat) (step : Script.Step) {w : World} (idle : w.store.held = []) :
    (advance depth step w).2.store.held = [] := by
  have mark : w.store.held.length = 0 := by rw [idle, List.length_nil]
  simp only [advance, judge, mark]
  split <;> exact World.settle_held _

/-- Between the steps of a session nothing is held by temporaries. -/
theorem between_idle (depth : Nat) (steps : List Script.Step) {w : World} (orderly : w.Orderly)
    (idle : w.store.held = []) :
    ∀ v ∈ between depth steps w, v.Orderly ∧ v.store.held = [] := by
  induction steps generalizing w with
  | nil =>
    intro v member
    rw [List.mem_singleton.mp member]
    exact ⟨orderly, idle⟩
  | cons step rest ih =>
    intro v member
    rcases List.mem_cons.mp member with rfl | later
    · exact ⟨orderly, idle⟩
    · exact ih (advance_orderly depth step orderly) (advance_idle depth step idle) v later

end Session

/-- Running a program and giving its temporaries back leaves every count of a reference to an entry
as it was, whether the program ends, fails or panics. -/
def Program.GivesBack {α : Type} (p : Program α) : Prop :=
  ∀ (calls : Calls) (w : World),
    (∀ t, ((p.run calls w).2.settle w.store.held.length []).2.store.ledger.get t
        = w.store.ledger.get t)
      ∧ ((p.run calls w).2.settle w.store.held.length []).2.store.ledger.total
        = w.store.ledger.total

/-- A reading program gives back what it took. -/
theorem Program.Reading.givesBack {α : Type} {p : Program α} (reading : p.Reading) :
    p.GivesBack := by
  intro calls w
  let stage : Stage :=
    { calls := calls
      native := fun _ _ _ _ => []
      host := fun _ _ _ => []
      assign := fun _ _ _ => []
      step := fun _ _ => [] }
  obtain ⟨_, top, ran⟩ := reading stage w
  have settled := (ran.settle []).2
  rw [Store.part_nil] at settled
  refine ⟨fun t => ?_, ?_⟩
  · have count := settled.ledger t
    simpa using count
  · have total := settled.total
    simpa using total

namespace Session

/-- The questions to the type database give back what they took, whether they find anything or
not. -/
structure QuestionsGiveBack : Prop where
  /-- Looking a name up, in every group and in the ancestors. -/
  find : ∀ t lookup name, (find t lookup name).GivesBack
  /-- Resolving a name. -/
  resolve : ∀ t name, (Member.resolve t name).run.GivesBack
  /-- Walking up through the ancestors. -/
  walk : ∀ stop limit t, (walkNames stop limit t).GivesBack
  /-- Deciding how the values of a type travel. -/
  shape : ∀ t, (Codec.shape t).run.GivesBack
  /-- Listing a type. -/
  describe : ∀ t, (Listing.describe t).GivesBack
  /-- Listing a handle. -/
  list : ∀ h, (Listing.ofHandle h).run.GivesBack
  /-- Reading a signature. -/
  signature : ∀ callable, (Signature.ofCallable callable).run.GivesBack
  /-- Asking about an entry, but for the two questions that count a reference themselves. -/
  query : ∀ t question, question ≠ .take → question ≠ .giveBack →
    (query t question).run.GivesBack
  /-- Asking without naming an entry. -/
  catalog : ∀ question, (queryCatalog question).GivesBack

theorem questionsGiveBack : QuestionsGiveBack where
  find _ _ _ := reading_find.givesBack
  resolve _ _ := Program.Reading.givesBack Member.reading_resolve
  walk _ _ _ := reading_walkNames.givesBack
  shape _ := Program.Reading.givesBack Codec.reading_shape
  describe _ := Listing.reading_describe.givesBack
  list _ := Program.Reading.givesBack Listing.reading_ofHandle
  signature _ := Program.Reading.givesBack Signature.reading_ofCallable
  query _ _ taking giving := Program.Reading.givesBack (reading_query taking giving)
  catalog _ := reading_queryCatalog.givesBack

/-- Between the steps of every session, the references to an entry are those that direct questions
took and did not give back, those of the live handles that it types and those of the records of the
connections of live instances.  Every other question gives back what it took. -/
theorem entry_accounting (options : Options) (depth : Nat) (steps : List Script.Step) {w : World}
    (reached : w ∈ between depth steps (start options)) :
    (∀ t, w.store.ledger.get t = w.store.entryBalance.get t
        + (w.store.typedBy t + (w.store.relays.map fun r => r.entries.count t).sum : Nat))
      ∧ w.store.ledger.total = w.store.entryBalance.total
        + (w.store.typed + (w.store.relays.map fun r => 2 + r.argumentTypes.length).sum : Nat)
      ∧ QuestionsGiveBack := by
  obtain ⟨orderly, idle⟩ := between_idle depth steps (start_orderly options) rfl w reached
  exact ⟨orderly.books.ledger_get idle, orderly.books.ledger_total idle, questionsGiveBack⟩

theorem last_mem_between (depth : Nat) (steps : List Script.Step) (w : World) :
    (advanceAll depth steps w).2 ∈ between depth steps w := by
  induction steps generalizing w with
  | nil => exact List.mem_singleton_self w
  | cons step rest ih => exact List.mem_cons_of_mem _ (ih (advance depth step w).2)

/-- A signal with one argument. -/
def sampleSignal : Script.Step :=
  .declare (.signal "Widget" "changed" [.plain .int32] (.plain .void)) none

/-- A handle, a direct reference to its type, and a connection of a host function. -/
def sampleConnected : List Script.Step :=
  sample ++
    [sampleSignal, .query (.existing "Widget") .take,
      .connect "h" "changed" (.named "f") (some (.variable "h"))]

theorem entry_accounting_sample :
    let w := (advanceAll 1 sampleConnected (start {})).2
    (∀ t, w.store.ledger.get t = w.store.entryBalance.get t
        + (w.store.typedBy t + (w.store.relays.map fun r => r.entries.count t).sum : Nat))
      ∧ w.store.ledger.total = w.store.entryBalance.total
        + (w.store.typed + (w.store.relays.map fun r => 2 + r.argumentTypes.length).sum : Nat)
      ∧ w.store.ledger.total = 5 ∧ w.store.entryBalance.total = 1 ∧ w.store.typed = 1
      ∧ w.store.relays.length = 1 := by
  obtain ⟨each, total, _⟩ :=
    entry_accounting {} 1 sampleConnected (last_mem_between 1 sampleConnected (start {}))
  exact ⟨each, total, by decide +kernel, by decide +kernel, by decide +kernel, by decide +kernel⟩

/-- A direct reference to the type of a handle. -/
def sampleAsked : List Script.Step := sample ++ [.query (.existing "Widget") .take]

/-- A connection that always answers with the same slot. -/
def sampleFixed : List Script.Step :=
  sample ++ [sampleSignal, .runtime (.connect (some "w") "changed" .zero)]

/-- A direct question may keep a reference to an entry, and a connection that always answers with
the same slot has no record, so handles and connections alone do not account for all references. -/
theorem entry_accounting_beyond_handles :
    (¬∀ t, (advanceAll 1 sampleAsked (start {})).2.store.ledger.get t
        = ((advanceAll 1 sampleAsked (start {})).2.store.typedBy t
          + ((advanceAll 1 sampleAsked (start {})).2.store.relays.map
              fun r => r.entries.count t).sum : Nat))
      ∧ ∀ arity : Connection → Nat, (advanceAll 1 sampleFixed (start {})).2.store.ledger.total
        ≠ ((advanceAll 1 sampleFixed (start {})).2.store.typed
          + ((advanceAll 1 sampleFixed (start {})).2.store.connections.map
              fun c => 2 + arity c).sum : Nat) := by
  refine ⟨fun counted => absurd (counted 1) (by decide +kernel), fun arity total => ?_⟩
  have connected : (advanceAll 1 sampleFixed (start {})).2.store.connections
      = [{ id := 1, signal := "changed", closure := 1 }] := by decide +kernel
  have counted : (advanceAll 1 sampleFixed (start {})).2.store.ledger.total = 1 := by
    decide +kernel
  rw [connected, counted] at total
  simp only [List.map_cons, List.map_nil, List.sum_cons, List.sum_nil] at total
  omega

end Session
end ObjectBridge
