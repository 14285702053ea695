import ObjectBridge.Proofs.Gathering
import ObjectBridge.Proofs.GroundedSession
import ObjectBridge.Proofs.Scenes

/-!
# Grounded worlds

A grounded world holds claims and identifiers only of entries of its database.  The answer to a
request that names only entries leaves such a world again, and it is not the panic of an unknown
token.  So a grounded program runs through grounded worlds only, and by induction on the depth the
functions and the nested steps of a session do too.
-/

namespace ObjectBridge

variable {db later : Database}

/-- What was known is known later. -/
theorem Database.Knows.edited {c : Claim} (known : db.Knows c) (edited : db.Edited later)
    (sound : db.Sound) : later.Knows c := fun t member => edited.has sound (known t member)

theorem HandleRecord.knows_claims {info : Option Token} {attachment : Option Attachment}
    {keeper : Option HandleId} (known : ∀ t ∈ info, db.Has t) :
    ∀ c ∈ ({ info, attachment, keeper } : HandleRecord).claims, db.Knows c := by
  intro c member t named
  rcases HandleRecord.mem_claims member with ⟨a, rfl, _⟩ | ⟨a, rfl, _⟩ | ⟨u, rfl, typed⟩
    | ⟨k, rfl, _⟩
  · exact absurd named List.not_mem_nil
  · exact absurd named List.not_mem_nil
  · exact List.mem_singleton.mp named ▸ known u typed
  · exact absurd named List.not_mem_nil

namespace Store.Grounded

variable {s s' : Store}

theorem of_eq (grounded : s.Grounded db) (held : s'.held = s.held)
    (handles : s'.handles = s.handles) (closures : s'.closures = s.closures) : s'.Grounded db where
  held := held ▸ grounded.held
  handles := handles ▸ grounded.handles
  closures := closures ▸ grounded.closures

theorem edited (grounded : s.Grounded db) (edited : db.Edited later) (sound : db.Sound) :
    s.Grounded later where
  held c member := (grounded.held c member).edited edited sound
  handles h r live c member := (grounded.handles h r live c member).edited edited sound
  closures k r live c member := (grounded.closures k r live c member).edited edited sound

/-- The temporaries may be replaced. -/
theorem setHeld (grounded : s.Grounded db) {held : List Claim} (known : ∀ c ∈ held, db.Knows c) :
    Grounded db { s with held := held } :=
  { grounded with held := known }

/-- A handle that stands for what it stood for may be changed. -/
theorem setHandle (grounded : s.Grounded db) {h : HandleId} {r r' : HandleRecord}
    (live : s.handles.get? h = some r) (same : r'.claims = r.claims) :
    Grounded db { s with handles := s.handles.set h r' } := by
  refine { grounded with handles := fun k q found => ?_ }
  rcases Table.get?_of_set found with ⟨rfl, rfl⟩ | old
  · exact same ▸ grounded.handles k r live
  · exact grounded.handles k q old

/-- A connection record that answers as it did may be changed. -/
theorem setClosure (grounded : s.Grounded db) {k : ClosureId} {r r' : Closure}
    (live : s.closures.get? k = some r) (same : r'.reaction = r.reaction) :
    Grounded db { s with closures := s.closures.set k r' } := by
  refine { grounded with closures := fun c q found => ?_ }
  rcases Table.get?_of_set found with ⟨rfl, rfl⟩ | old
  · exact same ▸ grounded.closures c r live
  · exact grounded.closures c q old

theorem eraseHandle (grounded : s.Grounded db) (h : HandleId) :
    Grounded db { s with handles := s.handles.erase h } :=
  { grounded with handles := fun k q found => grounded.handles k q (Table.get?_of_erase found) }

theorem eraseClosure (grounded : s.Grounded db) (k : ClosureId) :
    Grounded db { s with closures := s.closures.erase k } :=
  { grounded with closures := fun c q found => grounded.closures c q (Table.get?_of_erase found) }

theorem claim (grounded : s.Grounded db) (c : Claim) : (s.claim c).Grounded db := by
  cases c with
  | entry t | block a => exact grounded.of_eq rfl rfl rfl
  | handle h =>
    simp only [Store.claim]
    split
    · next r live => exact grounded.setHandle live rfl
    · exact grounded
  | reference a =>
    simp only [Store.claim]
    split <;> exact grounded.of_eq rfl rfl rfl
  | closure k =>
    simp only [Store.claim]
    split
    · next r live => exact grounded.setClosure live rfl
    · exact grounded

theorem claimAll (grounded : s.Grounded db) (claims : List Claim) :
    (s.claimAll claims).Grounded db := by
  induction claims generalizing s with
  | nil => exact grounded
  | cons c rest ih => exact ih (grounded.claim c)

/-- Giving claims back adds nothing that holds a claim. -/
theorem release (grounded : s.Grounded db) (claims : List Claim) :
    (s.release claims).2.Grounded db := by
  fun_induction Store.release claims s with
  | case1 s => exact grounded
  | case2 s t rest ih | case3 s a rest ih => exact ih (grounded.of_eq rfl rfl rfl)
  | case4 s h rest gone ih | case7 s c rest gone ih => exact ih grounded
  | case5 s h rest r live last ih => exact ih (grounded.eraseHandle h)
  | case6 s h rest r live shared ih => exact ih (grounded.setHandle live rfl)
  | case8 s c rest r live last ih => exact ih (grounded.eraseClosure c)
  | case9 s c rest r live shared ih => exact ih (grounded.setClosure live rfl)
  | case10 s a rest gone faults s' equal ih => simpa only [equal] using ih grounded
  | case11 s a rest i live last ih | case12 s a rest i live shared ih =>
    exact ih (grounded.of_eq rfl rfl rfl)

theorem hold (grounded : s.Grounded db) {c : Claim} (known : db.Knows c) :
    (s.hold c).Grounded db :=
  (grounded.claim c).setHeld (List.forall_mem_cons.mpr ⟨known, (grounded.claim c).held⟩)

theorem addHandle (grounded : s.Grounded db) {r : HandleRecord}
    (known : ∀ c ∈ r.claims, db.Knows c) : (s.addHandle r).2.Grounded db := by
  have claimed := grounded.claimAll r.claims
  refine ⟨List.forall_mem_cons.mpr ⟨Database.knows_handle, claimed.held⟩, fun h q found => ?_,
    claimed.closures⟩
  by_cases new : h = s.nextHandle
  · subst new
    rw [Store.addHandle, Table.get?_insert_self] at found
    exact Option.some.inj found ▸ known
  · exact claimed.handles h q ((Table.get?_insert_of_ne new).symm.trans found)

theorem addConnection (grounded : s.Grounded db) {reaction : Reaction}
    (known : ∀ c ∈ reaction.claims, db.Knows c) (a : Address) (i : Instance) (signal : String) :
    (s.addConnection a i signal reaction).2.Grounded db := by
  have claimed := grounded.claimAll reaction.claims
  refine ⟨claimed.held, claimed.handles, fun k q found => ?_⟩
  by_cases new : k = s.nextClosure
  · subst new
    rw [Store.addConnection, Table.get?_insert_self] at found
    exact Option.some.inj found ▸ known
  · exact claimed.closures k q ((Table.get?_insert_of_ne new).symm.trans found)

end Store.Grounded

/-- Whether the machine answers a request by itself and leaves the database alone. -/
def Request.alone : Request → Bool
  | .setDatabase _ => false
  | r => r.direct

/-- Whether a world holds claims and identifiers only of entries. -/
structure World.Grounded (w : World) : Prop where
  /-- The database is sound. -/
  sound : w.database.Sound
  /-- The claims are of its entries. -/
  store : w.store.Grounded w.database
  /-- So are the identifiers. -/
  bench : w.bench.Grounded w.database

/-- What an action does to a grounded world, and what it gives if it ends with a value. -/
structure World.Leaves {α : Type} (w : World) (gives : Database → α → Prop)
    (result : Outcome α × World) : Prop where
  /-- The database is a later one. -/
  edited : w.database.Edited result.2.database
  /-- The world is grounded again. -/
  grounded : result.2.Grounded
  /-- The action did not stop for an unknown token. -/
  stops : ∀ t, result.1 ≠ .stopped (.unknownEntry t)
  /-- What is given. -/
  gives : ∀ x, result.1 = .done x → gives result.2.database x

/-- Functions and nested steps that leave grounded worlds grounded. -/
structure Calls.Grounded (calls : Calls) : Prop where
  /-- Native functions. -/
  native : ∀ {w : World}, w.Grounded → ∀ callable inputs outputs, w.database.Has callable →
    w.Leaves Database.anything (calls.native callable inputs outputs w)
  /-- Host functions. -/
  host : ∀ {w : World}, w.Grounded → ∀ target arguments,
    w.Leaves Database.anything (calls.host target arguments w)
  /-- Setting a global. -/
  assign : ∀ {w : World}, w.Grounded → ∀ name v,
    w.Leaves Database.anything (calls.assign name v w)
  /-- Nested steps. -/
  step : ∀ {w : World}, w.Grounded → ∀ s, w.Leaves Database.anything (calls.step s w)

/-- The panic of an instance that is not live is not that of an unknown token. -/
theorem Stop.notLive_ne (a : Address) (t : Token) : Stop.notLive a ≠ .unknownEntry t := by
  intro same
  have letters := congrArg (fun text : String => text.toList.take 1) (Stop.panicked.inj same)
  simp [String.toList_append] at letters

theorem Outcome.ofFaults_ne (faults : List Address) (t : Token) :
    Outcome.ofFaults faults ≠ .stopped (.unknownEntry t) := by
  cases faults with
  | nil => exact fun same => nomatch same
  | cons a rest =>
    cases rest with
    | nil => exact fun same => Stop.notLive_ne a t (Outcome.stopped.inj same)
    | cons b rest => exact fun same => nomatch same

theorem Outcome.done_ne {α : Type} {x : α} {why : Stop} : Outcome.done x ≠ .stopped why :=
  fun same => by cases same

theorem Outcome.stopped_of_map {α β : Type} {f : α → β} {o : Outcome α} {why : Stop}
    (stopped : o.map f = .stopped why) : o = .stopped why := by
  cases o with
  | done x => cases stopped
  | stopped other => exact congrArg Outcome.stopped (Outcome.stopped.inj stopped)

namespace World

variable {w w' : World} {α β : Type}

theorem Grounded.withStore (grounded : w.Grounded) {s : Store} (store : s.Grounded w.database) :
    (w.withStore s).Grounded :=
  { grounded with store := store }

/-- The events do not matter. -/
theorem Grounded.cleared (grounded : w.Grounded) : ({ w with events := [] } : World).Grounded :=
  ⟨grounded.sound, grounded.store, grounded.bench⟩

theorem Grounded.setDatabase (grounded : w.Grounded) (edited : w.database.Edited later) :
    ({ w with database := later } : World).Grounded where
  sound := edited.sound grounded.sound
  store := grounded.store.edited edited grounded.sound
  bench row member := edited.has grounded.sound (grounded.bench row member)

/-- The database and what names entries is the same. -/
structure Quiet (w w' : World) : Prop where
  /-- The database is the same. -/
  database : w'.database = w.database
  /-- So are the temporaries. -/
  held : w'.store.held = w.store.held
  /-- So are the handles. -/
  handles : w'.store.handles = w.store.handles
  /-- So are the connection records. -/
  closures : w'.store.closures = w.store.closures
  /-- So are the identifiers. -/
  identifiers : w'.bench.identifiers = w.bench.identifiers

/-- What an answer that leaves the database alone does to a grounded world. -/
structure Keeps (w : World) (result : Outcome α × World) : Prop where
  /-- The database is the same. -/
  database : result.2.database = w.database
  /-- The world is grounded again. -/
  grounded : result.2.Grounded
  /-- The answer is not the panic of an unknown token. -/
  stops : ∀ t, result.1 ≠ .stopped (.unknownEntry t)

/-- The world is left with other claims. -/
theorem Grounded.keeps_store (grounded : w.Grounded) {s : Store} {x : α}
    (store : s.Grounded w.database) : w.Keeps (.done x, w.withStore s) :=
  ⟨rfl, grounded.withStore store, fun _ => Outcome.done_ne⟩

/-- What names entries is left as it is. -/
theorem Grounded.keeps (grounded : w.Grounded) {result : Outcome α × World}
    (quiet : w.Quiet result.2) (stops : ∀ t, result.1 ≠ .stopped (.unknownEntry t)) :
    w.Keeps result where
  database := quiet.database
  grounded :=
    { sound := quiet.database ▸ grounded.sound
      store := quiet.database ▸ grounded.store.of_eq quiet.held quiet.handles quiet.closures
      bench := fun row member => quiet.database ▸ grounded.bench row (quiet.identifiers ▸ member) }
  stops := stops

theorem Grounded.keeps_withInstance (grounded : w.Grounded) {a : Address}
    {f : Instance → Outcome α × World} (keeps : ∀ i, w.Keeps (f i)) :
    w.Keeps (w.withInstance a f) := by
  unfold withInstance
  split
  · exact keeps _
  · exact ⟨rfl, grounded, fun t same => Stop.notLive_ne a t (Outcome.stopped.inj same)⟩

theorem Grounded.keeps_release (grounded : w.Grounded) {s : Store} {claims : List Claim}
    (store : s.Grounded w.database) : w.Keeps ((w.withStore s).release claims) where
  database := rfl
  grounded := grounded.withStore (store.release claims)
  stops := Outcome.ofFaults_ne _

theorem Keeps.map {result : Outcome α × World} {f : α → β} (keeps : w.Keeps result) :
    w.Keeps (result.1.map f, result.2) where
  database := keeps.database
  grounded := keeps.grounded
  stops t same := keeps.stops t (Outcome.stopped_of_map same)

/-- Giving temporaries back. -/
theorem Grounded.keeps_settle (grounded : w.Grounded) (mark : Nat) (kept : List Claim) :
    w.Keeps (w.settle mark kept) := by
  refine grounded.keeps_release (grounded.store.setHeld fun c member => grounded.store.held c ?_)
  rcases List.mem_append.mp member with staying | older
  · have newer := (Store.part_perm _ kept).mem_iff.mp (List.mem_append_left _ staying)
    exact List.mem_of_mem_take newer
  · exact List.mem_of_mem_drop older

theorem Grounded.keeps_openHandle (grounded : w.Grounded) {info : Option Token}
    (known : ∀ t ∈ info, w.database.Has t) (attachment : Option Attachment)
    (keeper : Option HandleId) : w.Keeps (w.openHandle info attachment keeper) := by
  have added : (w.store.addHandle { info, attachment, keeper }).2.Grounded w.database :=
    grounded.store.addHandle (HandleRecord.knows_claims known)
  unfold openHandle
  dsimp only
  split
  · split
    · exact grounded.keeps_store added
    · exact ⟨rfl, grounded, fun t same => Stop.notLive_ne _ t (Outcome.stopped.inj same)⟩
  · exact grounded.keeps_store added

theorem Quiet.refl (w : World) : w.Quiet w := ⟨rfl, rfl, rfl, rfl, rfl⟩

theorem quiet_traceNames (entries : List Token) (w : World) :
    w.Quiet (entries.foldl traceName w) := by
  induction entries generalizing w with
  | nil => exact .refl w
  | cons t rest ih =>
    obtain ⟨database, held, handles, closures, identifiers⟩ := ih (w.traceName t)
    exact ⟨database, held, handles, closures, identifiers⟩

theorem Grounded.keeps_takeDirect (grounded : w.Grounded) (a : Address) :
    w.Keeps (w.takeDirect a) :=
  grounded.keeps_withInstance fun _ =>
    grounded.keeps ⟨rfl, rfl, rfl, rfl, rfl⟩ fun _ => Outcome.done_ne

/-- The machine by itself leaves grounded worlds grounded. -/
theorem Grounded.keeps_answer (grounded : w.Grounded) (calls : Calls) {r : Request}
    (named : r.Grounded w.database) (alone : r.alone = true) : w.Keeps (w.answer calls r) := by
  have still {s : Store} (held : s.held = w.store.held) (handles : s.handles = w.store.handles)
      (closures : s.closures = w.store.closures) : s.Grounded w.database :=
    grounded.store.of_eq held handles closures
  cases r with
  | invoke _ _ _ | callHost _ _ | assignGlobal _ _ | perform _ | setDatabase _ => cases alone
  | stop why => exact ⟨rfl, grounded, fun t same => named t (Outcome.stopped.inj same)⟩
  | entry t =>
    obtain ⟨e, found⟩ := (named t List.mem_cons_self : w.database.Has t).entry
    simp only [answer, found]
    exact grounded.keeps (.refl w) fun _ => Outcome.done_ne
  | raise signal =>
    simp only [answer]
    split
    · exact grounded.keeps ⟨rfl, rfl, rfl, rfl, rfl⟩ fun _ => Outcome.done_ne
    · exact grounded.keeps (.refl w) fun _ same => by cases same
  | trace entries =>
    simp only [answer]
    split
    · exact grounded.keeps (quiet_traceNames entries w) fun _ => Outcome.done_ne
    · exact grounded.keeps (.refl w) fun _ => Outcome.done_ne
  | liveInstance a =>
    exact grounded.keeps_withInstance fun i =>
      grounded.keeps (.refl w) fun _ => Outcome.done_ne
  | sink a | storeProperty a name slot =>
    exact grounded.keeps_withInstance fun i =>
      grounded.keeps ⟨rfl, rfl, rfl, rfl, rfl⟩ fun _ => Outcome.done_ne
  | attach a signal reaction =>
    have known : ∀ c ∈ reaction.claims, w.database.Knows c := fun c member t claimed =>
      named t (List.mem_flatMap.mpr ⟨c, member, claimed⟩)
    exact grounded.keeps_withInstance fun i =>
      grounded.keeps_store (grounded.store.addConnection known a i signal)
  | takeDirect a => exact grounded.keeps_takeDirect a
  | giveBackDirect a =>
    exact grounded.keeps_withInstance fun i => grounded.keeps_release (still rfl rfl rfl)
  | sinkDirect a =>
    refine grounded.keeps_withInstance fun i => ?_
    split
    · exact grounded.keeps ⟨rfl, rfl, rfl, rfl, rfl⟩ fun _ => Outcome.done_ne
    · exact grounded.keeps_takeDirect a
  | hold c => exact grounded.keeps_store (grounded.store.hold named)
  | letGo c =>
    have dropped : (w.store.dropHeld c).Grounded w.database := grounded.store.setHeld
      fun d member => grounded.store.held d (List.mem_of_mem_erase member)
    by_cases held : w.store.held.contains c = true
    · have answered : w.answer calls (.letGo c) = (w.withStore (w.store.dropHeld c)).release [c] :=
        if_pos held
      exact answered ▸ grounded.keeps_release dropped
    · have answered : w.answer calls (.letGo c) = (.done (), w) := if_neg held
      exact answered ▸ grounded.keeps (.refl w) fun _ => Outcome.done_ne
  | settle mark kept => exact grounded.keeps_settle mark kept
  | openHandle info attachment keeper =>
    exact grounded.keeps_openHandle (fun t typed => named t (Option.mem_toList.mpr typed)) _ _
  | openBlock info size =>
    have known : w.database.Has info := named info List.mem_cons_self
    let v : World := (w.place [] size).2.withStore
      { w.store with blocks := (w.place [] size).1 :: w.store.blocks }
    have placed : v.Grounded := ⟨grounded.sound, still rfl rfl rfl, grounded.bench⟩
    obtain ⟨database, opened, stops⟩ :=
      placed.keeps_openHandle known.given (some ⟨(w.place [] size).1, .block⟩) none
    exact ⟨database, opened, stops⟩
  | identify id t =>
    have there : w.database.Has t := named t List.mem_cons_self
    have identified : Bench.Grounded w.database
        { w.bench with identifiers := (id, t) :: w.bench.identifiers } :=
      List.forall_mem_cons.mpr ⟨there, grounded.bench⟩
    exact ⟨rfl, ⟨grounded.sound, grounded.store, identified⟩, fun _ => Outcome.done_ne⟩
  | create number floating =>
    have held : ∀ c ∈ .reference (w.place [] instanceStorage).1 :: w.store.held,
        w.database.Knows c :=
      List.forall_mem_cons.mpr ⟨List.forall_mem_nil _, grounded.store.held⟩
    exact ⟨rfl, ⟨grounded.sound, ⟨held, grounded.store.handles, grounded.store.closures⟩,
      grounded.bench⟩, fun _ => Outcome.done_ne⟩
  | storeGlobal name v | bind name v =>
    exact grounded.keeps_release ((grounded.store.claimAll v.claims).of_eq rfl rfl rfl)
  | dropGlobal name =>
    have released : w.Keeps ((w.withStore
        { w.store with globals := forget name w.store.globals }).release
          (claimsOf name w.store.globals)) := grounded.keeps_release (still rfl rfl rfl)
    exact released.map
  | unbind name =>
    have released : w.Keeps ((w.withStore
        { w.store with bindings := forget name w.store.bindings }).release
          (claimsOf name w.store.bindings)) := grounded.keeps_release (still rfl rfl rfl)
    exact released.map
  | _ => exact grounded.keeps ⟨rfl, rfl, rfl, rfl, rfl⟩ fun _ => Outcome.done_ne

/-! ### Answers and runs -/

/-- What is read is of the database that is there. -/
theorem Keeps.leaves {gives : Database → α → Prop} {result : Outcome α × World}
    (keeps : w.Keeps result) (given : ∀ x, result.1 = .done x → gives w.database x) :
    w.Leaves (fun later x => later = w.database ∧ gives later x) result where
  edited := keeps.database.symm ▸ .refl w.database
  grounded := keeps.grounded
  stops := keeps.stops
  gives x done := ⟨keeps.database, keeps.database.symm ▸ given x done⟩

/-- A run of something else leaves a later database. -/
theorem Leaves.onward {result : Outcome α × World} (leaves : w.Leaves Database.anything result) :
    w.Leaves (fun later _ => w.database.Edited later ∧ True) result :=
  { leaves with gives := fun _ _ => ⟨leaves.edited, trivial⟩ }

/-- Native functions run in the world that they are called in, but for the signals. -/
theorem Grounded.entering (grounded : w.Grounded) : w.entering.Grounded := by
  unfold World.entering
  split
  · exact ⟨grounded.sound, grounded.store, grounded.bench⟩
  · exact grounded

theorem entering_database (w : World) : w.entering.database = w.database := by
  unfold World.entering
  split <;> rfl

theorem Leaves.invoke {call : Action (Except String Slot × List Slot)}
    (leaves : w.entering.Leaves Database.anything (call w.entering)) :
    w.Leaves Database.anything (w.invoke call) := by
  unfold World.entering at leaves
  unfold World.invoke
  by_cases contained : w.options.containment = true
  · rw [if_pos contained] at leaves ⊢
    have settled := leaves.grounded
    exact
      { edited := leaves.edited
        grounded := ⟨settled.sound, settled.store, settled.bench⟩
        stops := fun t same => leaves.stops t (Outcome.stopped_of_map same)
        gives := fun _ _ => trivial }
  · rw [if_neg contained] at leaves ⊢
    exact
      { leaves with
        stops := fun t same => leaves.stops t (Outcome.stopped_of_map same)
        gives := fun _ _ => trivial }

/-- The answer to a request that names only entries. -/
theorem Grounded.answer {calls : Calls} (grounded : w.Grounded) (along : calls.Grounded)
    {r : Request} (named : r.Grounded w.database) :
    w.Leaves (fun later reply => r.Leads w.database later ∧ r.Gives later reply)
      (w.answer calls r) := by
  have keeps (alone : r.alone = true) := grounded.keeps_answer calls named alone
  cases r with
  | invoke callable inputs outputs =>
    have known : w.entering.database.Has callable :=
      (entering_database w).symm ▸ named callable List.mem_cons_self
    have called := along.native grounded.entering callable inputs outputs known
    exact called.invoke.onward
  | callHost target arguments => exact (along.host grounded target arguments).onward
  | assignGlobal name v => exact (along.assign grounded name v).onward
  | perform step => exact (along.step grounded step).onward
  | setDatabase later =>
    exact ⟨named, grounded.setDatabase named, fun _ => Outcome.done_ne, fun _ _ => ⟨rfl, trivial⟩⟩
  | entry t =>
    refine (keeps rfl).leaves fun e done => ?_
    simp only [World.answer] at done
    split at done
    · next found => exact Outcome.done.inj done ▸ found
    · cases done
  | database =>
    exact (keeps rfl).leaves fun _ done => (Outcome.done.inj done).symm
  | store =>
    exact (keeps rfl).leaves fun _ done => Outcome.done.inj done ▸ grounded.store
  | bench =>
    exact (keeps rfl).leaves fun _ done => Outcome.done.inj done ▸ grounded.bench
  | _ => exact (keeps rfl).leaves fun _ _ => trivial

end World

/-- A grounded program leaves a grounded world grounded, and gives what it is said to give. -/
theorem Program.Grounded.leaves {α : Type} {gives : Database → α → Prop} {p : Program α}
    {calls : Calls} {w : World} (program : p.Grounded gives w.database) (along : calls.Grounded)
    (grounded : w.Grounded) : w.Leaves gives (p.run calls w) := by
  induction p generalizing w with
  | done x =>
    refine ⟨.refl _, grounded, fun _ => Outcome.done_ne, fun y same => ?_⟩
    cases same
    exact program
  | ask r next ih =>
    have first := grounded.answer along program.1
    simp only [Program.run]
    revert first
    cases w.answer calls r with
    | mk outcome v =>
      intro first
      cases outcome with
      | done reply =>
        obtain ⟨leads, given⟩ := first.gives reply rfl
        have rest := ih reply (program.2 reply v.database leads given) first.grounded
        exact { rest with edited := first.edited.trans rest.edited }
      | stopped why =>
        refine ⟨first.edited, first.grounded, fun t same => first.stops t ?_, fun _ same => ?_⟩
        · exact congrArg Outcome.stopped (Outcome.stopped.inj same)
        · cases same

namespace Session

open World

variable {along : Calls} {w : World}

/-- A step leaves a later database and a grounded world, however it ends. -/
theorem grounded_judge (grounds : along.Grounded) (step : Script.Step) (grounded : w.Grounded) :
    w.database.Edited (judge along step w).2.database ∧ (judge along step w).2.Grounded := by
  have answered : Bridge.Grounded Database.anything (respond step) w.database :=
    grounded_respond grounded.sound
  have ran := Program.Grounded.leaves answered grounds grounded
  have settled := ran.grounded.keeps_settle w.store.held.length []
  rw [judge_settled]
  exact ⟨settled.database.symm ▸ ran.edited, settled.grounded⟩

theorem leaves_judgeNested (grounds : along.Grounded) (step : Script.Step) (grounded : w.Grounded) :
    w.Leaves Database.anything (judgeNested along step w) := by
  have judged := grounded_judge grounds step grounded
  unfold judgeNested
  split
  · next result =>
    rw [result] at judged
    exact ⟨judged.1, judged.2, nofun, nofun⟩
  · next result =>
    rw [result] at judged
    obtain ⟨edited, sound, store, bench⟩ := judged
    exact ⟨edited, ⟨sound, store, bench⟩, nofun, fun _ _ => trivial⟩

/-- The functions and the nested steps of a session leave grounded worlds grounded, at every
depth. -/
theorem calls_grounded (depth : Nat) : (calls depth).Grounded := by
  induction depth with
  | zero =>
    have ends {w : World} {α : Type} (grounded : w.Grounded) :
        w.Leaves Database.anything ((.stopped .ended, w) : Outcome α × World) :=
      ⟨.refl _, grounded, nofun, nofun⟩
    exact ⟨fun grounded _ _ _ _ => ends grounded, fun grounded _ _ => ends grounded,
      fun grounded _ _ => ends grounded, fun grounded _ => ends grounded⟩
  | succ depth ih =>
    constructor
    · intro w grounded callable inputs outputs known
      exact (grounded_callNative grounded.sound known).leaves ih grounded
    · intro w grounded target arguments
      exact (grounded_callHost grounded.sound.toLinked).leaves ih grounded
    · intro w grounded name v
      exact (grounded_assignGlobal grounded.sound.toLinked).leaves ih grounded
    · intro w grounded step
      exact leaves_judgeNested ih step grounded

theorem grounded_advance (depth : Nat) (step : Script.Step) (grounded : w.Grounded) :
    w.database.Edited (advance depth step w).2.database ∧ (advance depth step w).2.Grounded :=
  grounded_judge (calls_grounded depth) step grounded.cleared

/-- The start of a session over a database, some of whose entries have names. -/
def opening (options : Options) (db : Database) (bench : Bench) : World :=
  { start options with database := db, bench := bench }

theorem grounded_opening {db : Database} (options : Options) {bench : Bench} (sound : db.Sound)
    (known : bench.Grounded db) : (opening options db bench).Grounded where
  sound := sound
  store :=
    { held := List.forall_mem_nil _
      handles := fun _ _ live => nomatch live
      closures := fun _ _ live => nomatch live }
  bench := known

end Session
end ObjectBridge
