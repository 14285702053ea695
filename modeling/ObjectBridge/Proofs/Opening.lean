import ObjectBridge.Proofs.Casting
import ObjectBridge.Proofs.Displaying

/-!
# Opening a handle

A program that looks things up and opens one handle leaves the handle on top of the temporaries, one
more unit of everything that the handle claims, and references to entries that the region around
the program gives back.  Giving the handle back again restores every count.
-/

namespace ObjectBridge

namespace Table

variable {α : Type} {key : Nat} {x : α}

/-- An entry that was just added can be taken away. -/
theorem erase_insert {t : Table α} (absent : t.get? key = none) :
    (t.insert key x).erase key = t := by
  have rows : (t.insert key x).rows = t.rows ++ [(key, x)] := t.insert_of_absent absent x
  refine ext ?_
  change discard key (t.insert key x).rows = t.rows
  rw [rows]
  change find key t.rows = none at absent
  revert absent
  generalize t.rows = rows
  intro absent
  induction rows with
  | nil => simp [discard]
  | cons row rest ih =>
    obtain ⟨k, y⟩ := row
    by_cases first : k = key
    · simp [find, first] at absent
    · simp only [find, first, if_false] at absent
      simp [discard, first, ih absent]

end Table

/-- A claim of an entry, or a reference to an instance. -/
def Claim.Light (c : Claim) : Prop := c.isEntry = true ∨ ∃ a, c = .reference a

namespace Store

variable {s s' : Store} {claims : List Claim}

theorem instances_claim_congr (same : s'.instances = s.instances) (c : Claim) :
    (s'.claim c).instances = (s.claim c).instances := by
  cases c with
  | reference a =>
    simp only [claim, same]
    split
    · rfl
    · exact same
  | handle h | closure h =>
    simp only [claim]
    split <;> split <;> exact same
  | entry t | block a => exact same

theorem instances_claimAll_congr (same : s'.instances = s.instances) (claims : List Claim) :
    (s'.claimAll claims).instances = (s.claimAll claims).instances := by
  induction claims generalizing s s' with
  | nil => exact same
  | cons c rest ih => exact ih (instances_claim_congr same c)

/-- Claims of entries and references to instances change the ledger and the instances. -/
theorem claimAll_light (light : ∀ c ∈ claims, c.Light) (s : Store) :
    s.claimAll claims
        = { s with
            ledger := (s.claimAll claims).ledger
            instances := (s.claimAll claims).instances }
      ∧ (∀ t, (s.claimAll claims).ledger.get t = s.ledger.get t + claims.count (.entry t))
      ∧ (s.claimAll claims).ledger.total = s.ledger.total + claims.countP Claim.isEntry := by
  induction claims generalizing s with
  | nil => exact ⟨rfl, fun t => by simp [claimAll], by simp [claimAll]⟩
  | cons c rest ih =>
    obtain ⟨others, counts, sum⟩ :=
      ih (fun d member => light d (List.mem_cons_of_mem c member)) (s.claim c)
    change s.claimAll (c :: rest) = _ at others
    have step : s.claimAll (c :: rest) = (s.claim c).claimAll rest := rfl
    rw [step]
    rcases light c List.mem_cons_self with entry | ⟨a, rfl⟩
    · cases c with
      | entry t =>
        refine ⟨others, fun u => ?_, ?_⟩
        · rw [counts, claim, Tally.get_take, List.count_cons]
          simp only [beq_iff_eq, Claim.entry.injEq, eq_comm (a := t)]
          split <;> omega
        · rw [sum, claim, Tally.total_take, List.countP_cons]
          simp only [Claim.isEntry, if_true]
          omega
      | _ => cases entry
    · have bare : s.claim (.reference a)
          = { s with instances := (s.claim (.reference a)).instances } := by
        simp only [claim]
        split <;> rfl
      refine ⟨others.trans ?_, fun u => ?_, ?_⟩
      · simp only [claim]
        split <;> rfl
      · rw [counts, bare]
        simp
      · rw [sum, bare]
        simp [Claim.isEntry]

/-- Giving back one of several references. -/
theorem release_reference_of_several {a : Address} {i : Instance}
    (live : s.instances.get? a = some i) (several : 1 < i.references) (rest : List Claim) :
    s.release (.reference a :: rest)
      = ({ s with instances := s.instances.set a { i with references := i.references - 1 } }
          : Store).release rest := by
  rw [release]
  split
  · next gone =>
    rw [live] at gone
    cases gone
  · next i' found =>
    rw [live] at found
    cases found
    rw [if_neg (Nat.not_le.mpr several)]

end Store

namespace World

variable {w w₁ w₂ w' : World} {r : HandleRecord} {top : List Claim}

/-- What opening a handle leaves: the handle on top of the temporaries, its claims taken once, and
references to entries below it. -/
structure Opens (w w' : World) (r : HandleRecord) (top : List Claim) : Prop extends
    w.Steady w' where
  /-- Memory is the same. -/
  memory : w'.memory = w.memory
  /-- What lies below the handle are references to entries. -/
  entries : ∀ c ∈ top, c.isEntry = true
  /-- The handle is new, and nothing else is counted but its claims and the entries. -/
  store : w'.store =
    { w.store with
      ledger := w'.store.ledger
      instances := (w.store.claimAll r.claims).instances
      handles := w.store.handles.insert w.store.nextHandle r
      nextHandle := w.store.nextHandle + 1
      held := .handle w.store.nextHandle :: (top ++ w.store.held) }
  /-- An entry is counted once for each claim of it. -/
  ledger : ∀ t, w'.store.ledger.get t = w.store.ledger.get t + (r.claims ++ top).count (.entry t)
  /-- So the total grows by the number of these claims. -/
  total : w'.store.ledger.total = w.store.ledger.total + (r.claims ++ top).countP Claim.isEntry

/-- A handle that is kept by no other one and owns no block. -/
def Free (r : HandleRecord) : Prop :=
  r.keeper = none ∧ ∀ a, r.attachment ≠ some ⟨a, .block⟩

theorem Free.light (free : Free r) : ∀ c ∈ r.claims, c.Light := by
  intro c member
  rcases HandleRecord.mem_claims member with
    ⟨a, rfl, _⟩ | ⟨a, _, block⟩ | ⟨t, rfl, _⟩ | ⟨k, _, keeper⟩
  · exact .inr ⟨a, rfl⟩
  · exact absurd block (free.2 a)
  · exact .inl rfl
  · rw [free.1] at keeper
    cases keeper

/-- Adding a handle opens it. -/
theorem opens_addHandle (w : World) (free : Free r) :
    w.Opens (w.withStore (w.store.addHandle r).2) r [] := by
  obtain ⟨claimed, counts, sum⟩ := w.store.claimAll_light free.light
  refine ⟨w.steady_withStore _, rfl, fun c member => absurd member List.not_mem_nil, ?_,
    fun t => ?_, ?_⟩
  · change { w.store.claimAll r.claims with
      handles := (w.store.claimAll r.claims).handles.insert w.store.nextHandle r
      nextHandle := w.store.nextHandle + 1
      held := .handle w.store.nextHandle :: (w.store.claimAll r.claims).held } = _
    rw [claimed]
    rfl
  · rw [List.append_nil]
    exact counts t
  · rw [List.append_nil]
    exact sum

/-- Looking things up before a handle is opened. -/
theorem Looked.opens (looked : w.Looked w₁) (memory : w₁.memory = w.memory)
    (opens : w₁.Opens w₂ r top) : ∃ older, w.Opens w₂ r (top ++ older) := by
  obtain ⟨older, reading⟩ := looked.reading
  have instances : w₁.store.instances = w.store.instances := looked.instances
  have next : w₁.store.nextHandle = w.store.nextHandle := by rw [reading.store]
  have older_count : older.countP Claim.isEntry = older.length :=
    List.countP_eq_length.mpr reading.entries
  refine ⟨older, looked.toSteady.trans opens.toSteady, opens.memory.trans memory,
    fun c member => ?_, ?_, fun t => ?_, ?_⟩
  · rcases List.mem_append.mp member with new | old
    · exact opens.entries c new
    · exact reading.entries c old
  · rw [opens.store, Store.instances_claimAll_congr instances, next, reading.store,
      List.append_assoc]
  · simp only [opens.ledger, reading.ledger, List.count_append]
    omega
  · simp only [opens.total, reading.total, List.countP_append, older_count]
    omega

/-- Giving back the entries below a handle that is kept. -/
theorem Opens.settle (opens : w.Opens w₁ r top) :
    ∃ w₂, w₁.settle w.store.held.length [.handle w.store.nextHandle] = (.done (), w₂)
      ∧ w.Opens w₂ r [] := by
  have held : w₁.store.held = (.handle w.store.nextHandle :: top) ++ w.store.held := by
    rw [opens.store]
    rfl
  have parted : Store.part (.handle w.store.nextHandle :: top) [.handle w.store.nextHandle]
      = ([.handle w.store.nextHandle], top) :=
    Store.part_append [.handle w.store.nextHandle] top
  obtain ⟨ledger, released, counts, sum⟩ := release_entries opens.entries
    { w₁.store with held := .handle w.store.nextHandle :: w.store.held }
  have top_count : top.countP Claim.isEntry = top.length :=
    List.countP_eq_length.mpr opens.entries
  refine ⟨w₁.withStore
    { w₁.store with ledger := ledger, held := .handle w.store.nextHandle :: w.store.held },
    ?_, ?_⟩
  · rw [settle_append _ held, parted]
    simp only [World.release, List.singleton_append, World.withStore, released, Outcome.ofFaults]
  · refine ⟨opens.toSteady.trans (w₁.steady_withStore _), opens.memory,
      fun c member => absurd member List.not_mem_nil, ?_, fun t => ?_, ?_⟩
    · have store := opens.store
      simp only [World.withStore]
      rw [store]
      rfl
    · have before := opens.ledger t
      have after := counts t
      simp only [World.withStore]
      rw [after]
      simp only [before, List.count_append, List.count_nil]
      omega
    · have before := opens.total
      simp only [World.withStore]
      rw [sum]
      simp only [before, List.countP_append, List.countP_nil, top_count]
      omega

/-- The claims of a handle that is kept by no other one and owns no block. -/
theorem Free.claims_eq (free : Free r) :
    r.claims = (takenBy r.attachment).map .reference ++ entryClaims r.info := by
  obtain ⟨info, attachment, keeper, shares⟩ := r
  obtain ⟨rfl, unblocked⟩ := free
  rcases attachment with _ | ⟨a, _ | _ | _⟩
  case some.block => exact absurd rfl (unblocked a)
  all_goals exact List.append_nil _

theorem entries_entryClaims (info : Option Token) : ∀ c ∈ entryClaims info, c.isEntry = true := by
  cases info with
  | none => exact fun c member => absurd member List.not_mem_nil
  | some t => exact fun c member => List.mem_singleton.mp member ▸ rfl

/-- Opening a handle takes one reference to each instance that it retains. -/
theorem Opens.references (opens : w.Opens w' r top) (free : Free r)
    (live : ∀ a ∈ takenBy r.attachment, w.store.isLive a = true) (b : Address) :
    w'.store.references b = w.store.references b + (takenBy r.attachment).count b := by
  have claims : w'.store.references b = (w.store.claimAll r.claims).references b := by
    rw [Store.references, opens.store]
    rfl
  have entries (s : Store) : (s.claimAll (entryClaims r.info)).references b = s.references b := by
    cases r.info <;> rfl
  rw [claims, free.claims_eq]
  rcases taken : r.attachment with _ | ⟨a, _ | _ | _⟩
  case some.retained =>
    have there : w.store.isLive a = true := live a (by rw [taken]; exact List.mem_singleton_self a)
    change ((w.store.claim (.reference a)).claimAll (entryClaims r.info)).references b = _
    rw [entries, Store.references_claim_reference there]
    simp only [takenBy, List.count_singleton, beq_iff_eq, eq_comm (a := a)]
  all_goals exact entries w.store

/-- What is left where everything that is counted is as it was. -/
structure Restored (w w' : World) : Prop extends w.Steady w' where
  /-- Only the order of the counts of entries differs, and the number of the next handle. -/
  store : w'.store =
    { w.store with ledger := w'.store.ledger, nextHandle := w'.store.nextHandle }
  /-- The counts of entries are the same. -/
  ledger : ∀ t, w'.store.ledger.get t = w.store.ledger.get t
  /-- Their total is the same. -/
  total : w'.store.ledger.total = w.store.ledger.total

/-- Giving an opened handle back gives back what it claims. -/
theorem Opens.release (opens : w.Opens w' r []) (free : Free r) (single : r.shares = 1)
    (orderly : w.Orderly) (live : ∀ a ∈ takenBy r.attachment, w.store.isLive a = true) :
    ∃ w'', (w'.withStore (w'.store.dropHeld (.handle w.store.nextHandle))).release
        [.handle w.store.nextHandle] = (.done (), w'') ∧ w.Restored w'' := by
  have fresh := orderly.books.handle_fresh
  have unheld : w'.store.dropHeld (.handle w.store.nextHandle)
      = { w'.store with held := w.store.held } := by
    rw [Store.dropHeld, opens.store]
    simp
  have found : w'.store.handles.get? w.store.nextHandle = some r := by
    rw [opens.store]
    exact Table.get?_insert_self _ _ _
  have ended : w'.store.handles.erase w.store.nextHandle = w.store.handles := by
    rw [opens.store]
    exact Table.erase_insert fresh
  have instances : w'.store.instances = (w.store.claimAll r.claims).instances := by
    rw [opens.store]
  let s : Store := { w'.store with handles := w.store.handles, held := w.store.held }
  have given : ({ w'.store with held := w.store.held } : Store).release
      [.handle w.store.nextHandle] = s.release r.claims := by
    rw [Store.release]
    split
    · next gone =>
      rw [found] at gone
      cases gone
    · next r' there =>
      rw [found] at there
      cases there
      rw [if_pos (Nat.le_of_eq single), List.append_nil]
      exact congrArg (Store.release r.claims) (by simp only [ended, s])
  obtain ⟨ledger, released, counts, sum⟩ := release_entries (entries_entryClaims r.info)
    { s with instances := w.store.instances }
  have paid : s.release r.claims
      = ([], { s with instances := w.store.instances, ledger := ledger }) := by
    rw [free.claims_eq] at instances ⊢
    have entries (s : Store) : (s.claimAll (entryClaims r.info)).instances = s.instances := by
      cases r.info <;> rfl
    rcases taken : r.attachment with _ | ⟨a, _ | _ | _⟩
    case some.retained =>
      obtain ⟨i, there⟩ := Option.isSome_iff_exists.mp
        (live a (by rw [taken]; exact List.mem_singleton_self a))
      have counted :
          s.instances = w.store.instances.set a { i with references := i.references + 1 } := by
        rw [taken] at instances
        refine instances.trans ((entries (w.store.claim (.reference a))).trans ?_)
        simp only [Store.claim, there]
      have raised : s.instances.get? a = some { i with references := i.references + 1 } := by
        rw [counted, Table.get?_set, if_pos rfl, there, Option.map_some]
      have several : 1 < i.references + 1 :=
        Nat.succ_lt_succ (orderly.books.instances a i there).1
      refine (Store.release_reference_of_several raised several _).trans ?_
      rw [counted, Table.set_set, Nat.add_sub_cancel, Table.set_self there]
      exact released
    all_goals
      rw [taken] at instances
      have same : s = { s with instances := w.store.instances } := by
        simp only [s, instances.trans (entries w.store)]
      exact (congrArg (Store.release (entryClaims r.info)) same).trans released
  have taken_entries : r.claims.countP Claim.isEntry = (entryClaims r.info).length := by
    rw [free.claims_eq, List.countP_append,
      List.countP_eq_length.mpr (entries_entryClaims r.info)]
    rcases r.attachment with _ | ⟨a, _ | _ | _⟩ <;> simp [takenBy, Claim.isEntry]
  have taken_count (t : Token) :
      r.claims.count (.entry t) = (entryClaims r.info).count (.entry t) := by
    rw [free.claims_eq, List.count_append]
    rcases r.attachment with _ | ⟨a, _ | _ | _⟩ <;> simp [takenBy]
  refine ⟨w'.withStore { s with instances := w.store.instances, ledger := ledger }, ?_,
    opens.toSteady.trans (w'.steady_withStore _), ?_, fun t => ?_, ?_⟩
  · rw [unheld, World.release]
    simp only [World.withStore, given, paid, Outcome.ofFaults]
  · simp only [World.withStore, s]
    rw [opens.store]
  · have before := opens.ledger t
    have after := counts t
    rw [List.append_nil, taken_count] at before
    simp only [World.withStore, s] at after ⊢
    omega
  · have before := opens.total
    rw [List.append_nil, taken_entries] at before
    simp only [World.withStore, s] at sum ⊢
    omega

end World

namespace Program

variable {α β : Type} {calls : Calls} {w w₁ w' : World} {r : HandleRecord}

/-- Give the claims of a value back. -/
def drop (v : Value) : Program Unit := forEach letGo v.claims

/-- A program that ends with a value for the new handle that it opens. -/
def Hands (calls : Calls) (p : Program α) (w : World) (x : α) (r : HandleRecord) : Prop :=
  ∃ w' top, p.run calls w = (.done x, w') ∧ w.Opens w' r top

/-- Opening a handle comes after everything that is found without reserving storage. -/
theorem Finds.hands {q : Program β} {g : β → Program α} {found : β → Prop} {x : α}
    (finds : q.Finds w found) (spares : q.Spares)
    (rest : ∀ y w₁, w.Looked w₁ → w₁.memory = w.memory → found y → (g y).Hands calls w₁ x r) :
    (q >>= g).Hands calls w x r := by
  obtain ⟨y, w₁, passes, looked, holds⟩ := finds calls w (.refl w)
  have memory := spares calls w
  rw [passes.run] at memory
  obtain ⟨w', top, ran, opens⟩ := rest y w₁ looked memory holds
  obtain ⟨older, opened⟩ := looked.opens memory opens
  exact ⟨w', top ++ older, by rw [run_bind, passes.run]; exact ran, opened⟩

/-- The region around a program keeps the handle and nothing else. -/
theorem Hands.closed {p : Program α} {keep : α → List Claim} {x : α}
    (keeps : keep x = [.handle w.store.nextHandle]) (hands : p.Hands calls w x r) :
    ∃ w', (region keep p).run calls w = (.done x, w') ∧ w.Opens w' r [] := by
  obtain ⟨w₁, top, ran, opens⟩ := hands
  obtain ⟨w', settled, opened⟩ := opens.settle
  refine ⟨w', ?_, opened⟩
  rw [run_region, ran]
  exact close_done.mpr ⟨w₁, rfl, keeps ▸ settled⟩

theorem Hands.region {p : Program α} {keep : α → List Claim} {x : α}
    (keeps : keep x = [.handle w.store.nextHandle]) (hands : p.Hands calls w x r) :
    (region keep p).Hands calls w x r := by
  obtain ⟨w', ran, opens⟩ := hands.closed keeps
  exact ⟨w', [], ran, opens⟩

/-- Opening a handle on nothing, on a live instance, or on an address without a reference. -/
theorem hands_open (calls : Calls) (w : World) {give : HandleId → α} (free : World.Free r)
    (single : r.shares = 1) (live : ∀ a ∈ World.takenBy r.attachment, w.store.isLive a = true) :
    ((request (.openHandle r.info r.attachment none) : Program HandleId) >>=
      fun h => pure (give h)).Hands calls w (give w.store.nextHandle) r := by
  obtain ⟨info, attachment, keeper, shares⟩ := r
  obtain ⟨rfl, unblocked⟩ := free
  cases single
  refine ⟨_, [], ?_, w.opens_addHandle ⟨rfl, unblocked⟩⟩
  have answered : w.answer calls (.openHandle info attachment none)
      = (.done w.store.nextHandle,
        w.withStore (w.store.addHandle { info := info, attachment := attachment }).2) := by
    match attachment with
    | none | some ⟨a, .borrowed⟩ => rfl
    | some ⟨a, .retained⟩ => exact if_pos (live a (List.mem_singleton_self a))
    | some ⟨a, .block⟩ => exact absurd rfl (unblocked a)
  exact run_bind_done.mpr ⟨w.store.nextHandle, _, run_request.trans answered, rfl⟩

/-- Giving an opened handle back. -/
theorem run_drop (calls : Calls) (opens : w.Opens w' r []) (free : World.Free r)
    (single : r.shares = 1) (orderly : w.Orderly)
    (live : ∀ a ∈ World.takenBy r.attachment, w.store.isLive a = true) :
    ∃ w'', (drop (.handle w.store.nextHandle)).run calls w' = (.done (), w'')
      ∧ w.Restored w'' := by
  obtain ⟨w'', released, restored⟩ := opens.release free single orderly live
  refine ⟨w'', ?_, restored⟩
  have holds : w'.store.held.contains (.handle w.store.nextHandle) = true := by
    rw [opens.store]
    simp
  have answered : w'.answer calls (.letGo (.handle w.store.nextHandle)) = (.done (), w'') :=
    (if_pos holds).trans released
  exact run_bind_done.mpr ⟨(), w'', run_request.trans answered, rfl⟩

end Program
end ObjectBridge
