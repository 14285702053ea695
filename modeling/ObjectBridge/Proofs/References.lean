import Mathlib
import ObjectBridge.Proofs.Running

/-!
# References to instances

Between steps and inside them, a reference to an instance is either one that direct calls took and
did not give back, or that of a live handle: no temporary, no variable, no connection and no other
instance holds one.  So the count of every live instance is the sum of the two, and as long as
direct calls give nothing back too often, a handle never outlives its instance.
-/

namespace ObjectBridge

/-- The number of the live handles that own a reference to an instance. -/
def Store.retainers (s : Store) (a : Address) : Nat :=
  s.handles.rows.countP fun row => row.2.attachment = some ⟨a, .retained⟩

namespace Table

variable {α : Type}

theorem weight_eq_sum (f : α → Nat) (t : Table α) :
    t.weight f = (t.rows.map fun row => f row.2).sum := by
  rw [weight]
  induction t.rows with
  | nil => rfl
  | cons row rest ih => rw [weigh, ih, List.map_cons, List.sum_cons]

theorem weight_ite (p : α → Bool) (t : Table α) :
    t.weight (fun x => if p x then 1 else 0) = t.rows.countP fun row => p row.2 := by
  rw [weight_eq_sum]
  induction t.rows with
  | nil => rfl
  | cons row rest ih =>
    rw [List.map_cons, List.sum_cons, ih, List.countP_cons, Nat.add_comm]

theorem weight_eq_zero {f : α → Nat} {t : Table α} (none : ∀ x, f x = 0) : t.weight f = 0 := by
  rw [weight_eq_sum]
  induction t.rows with
  | nil => rfl
  | cons row rest ih => rw [List.map_cons, List.sum_cons, ih, none]

end Table

theorem Tally.get_nonneg {t : Tally} (nonneg : ∀ row ∈ t.counts, 0 ≤ row.2) (k : Nat) :
    0 ≤ t.get k := by
  rw [get]
  generalize t.counts = counts at nonneg
  induction counts with
  | nil => exact Int.le_refl 0
  | cons row rest ih =>
    obtain ⟨j, n⟩ := row
    rw [count]
    split
    · exact nonneg _ List.mem_cons_self
    · exact ih fun row member => nonneg row (List.mem_cons_of_mem _ member)

/-- What a handle claims: its instance, its type and the handle that must outlive it. -/
theorem HandleRecord.mem_claims {r : HandleRecord} {c : Claim} (member : c ∈ r.claims) :
    (∃ a, c = .reference a ∧ r.attachment = some ⟨a, .retained⟩)
      ∨ (∃ a, c = .block a ∧ r.attachment = some ⟨a, .block⟩)
      ∨ (∃ t, c = .entry t ∧ r.info = some t) ∨ ∃ k, c = .handle k ∧ r.keeper = some k := by
  obtain ⟨info, attachment, keeper, shares⟩ := r
  simp only [claims, List.mem_append] at member
  rcases member with (owned | typed) | kept
  · cases attachment with
    | none => simp at owned
    | some attachment =>
      obtain ⟨a, ownership⟩ := attachment
      cases ownership with
      | borrowed => simp at owned
      | retained => exact .inl ⟨a, List.mem_singleton.mp owned, rfl⟩
      | block => exact .inr (.inl ⟨a, List.mem_singleton.mp owned, rfl⟩)
  · cases info with
    | none => simp [entryClaims] at typed
    | some t => exact .inr (.inr (.inl ⟨t, List.mem_singleton.mp typed, rfl⟩))
  · cases keeper with
    | none => simp at kept
    | some k => exact .inr (.inr (.inr ⟨k, List.mem_singleton.mp kept, rfl⟩))

namespace Store

/-- Variables and globals only hold handles. -/
theorem countP_valueClaims {p : Claim → Bool} (other : ∀ h, p (.handle h) = false)
    (values : List (String × Value)) : (valueClaims values).countP p = 0 := by
  refine List.countP_eq_zero.mpr fun c member => ?_
  obtain ⟨row, _, claimed⟩ := List.mem_flatMap.mp member
  cases held : row.2 with
  | handle h =>
    rw [held] at claimed
    rw [List.mem_singleton.mp claimed, other]
    exact Bool.false_ne_true
  | _ => simp [held, Value.claims] at claimed

theorem countP_reference (r : HandleRecord) (a : Address) :
    r.claims.countP (· == .reference a)
      = if decide (r.attachment = some ⟨a, .retained⟩) then 1 else 0 := by
  obtain ⟨info, attachment, keeper, shares⟩ := r
  have typed : (entryClaims info).countP (· == .reference a) = 0 := by
    cases info <;> simp [entryClaims]
  simp only [HandleRecord.claims, List.countP_append, typed]
  rcases attachment with _ | ⟨b, _ | _ | _⟩ <;> cases keeper <;> simp

/-- Only temporaries and handles hold references to instances. -/
theorem holders_reference (s : Store) (a : Address) :
    s.holders (· == .reference a) = s.held.countP (· == .reference a) + s.retainers a := by
  have closures : s.closures.weight (fun c => c.reaction.claims.countP (· == .reference a)) = 0 := by
    refine Table.weight_eq_zero fun c => List.countP_eq_zero.mpr fun d member => ?_
    rcases Reaction.mem_claims member with ⟨t, rfl⟩ | ⟨h, rfl, _⟩ <;> exact Bool.false_ne_true
  have instances : s.instances.weight (fun i => i.claims.countP (· == .reference a)) = 0 := by
    refine Table.weight_eq_zero fun i => List.countP_eq_zero.mpr fun d member => ?_
    obtain ⟨connection, _, rfl⟩ := List.mem_map.mp member
    exact Bool.false_ne_true
  simp only [holders, countP_valueClaims (p := (· == .reference a)) fun _ => rfl, closures, instances,
    countP_reference, retainers, Table.weight_ite]
  omega

theorem retainers_pos {s : Store} {h : HandleId} {r : HandleRecord} {a : Address}
    (live : s.handles.get? h = some r) (retained : r.attachment = some ⟨a, .retained⟩) :
    0 < s.retainers a := by
  have weight := Table.le_weight
    (fun r : HandleRecord => if decide (r.attachment = some ⟨a, .retained⟩) then 1 else 0) live
  rw [Table.weight_ite] at weight
  simpa [retained, retainers] using weight

/-- While no balance is negative, giving back what is owed never meets an instance that is gone. -/
theorem Accounted.faultless {s : Store} {next : Address} {owed : List Claim}
    (books : s.Accounted next owed) (balanced : ∀ a, 0 ≤ s.instanceBalance.get a) :
    (s.release owed).1 = [] := by
  fun_induction Store.release owed s with
  | case1 => rfl
  | case2 s t rest ih => exact ih books.pay_entry balanced
  | case3 s a rest ih => exact ih books.pay_block balanced
  | case4 s h rest gone ih => exact ih (books.pay_no_handle gone) balanced
  | case5 s h rest r live last ih => exact ih (books.pay_last_handle live) balanced
  | case6 s h rest r live shared ih => exact ih (books.pay_handle live shared) balanced
  | case7 s c rest gone ih => exact ih (books.pay_no_closure gone) balanced
  | case8 s c rest r live last ih => exact ih (books.pay_last_closure live last) balanced
  | case9 s c rest r live shared ih => exact ih (books.pay_closure live shared) balanced
  | case10 s a rest gone faults s' equal ih =>
    -- A reference that is owed is counted, so the balance of a gone instance would be negative.
    have count := books.counted (.reference a)
    have balance := balanced a
    simp only [counts, gone, List.count_cons_self] at count
    omega
  | case11 s a rest i live last ih => exact ih (books.pay_last_reference live last) balanced
  | case12 s a rest i live shared ih => exact ih (books.pay_reference live shared) balanced

end Store

namespace World

variable {w : World}

theorem Orderly.reference_holders (orderly : w.Orderly) (a : Address) :
    w.store.holders (· == .reference a) = w.store.retainers a := by
  have temporaries : w.store.held.countP (· == .reference a) = 0 :=
    List.countP_eq_zero.mpr fun c member same => orderly.settled a (eq_of_beq same ▸ member)
  rw [Store.holders_reference, temporaries, Nat.zero_add]

/-- The references of a live instance are those of direct calls and those of handles. -/
theorem Orderly.references_eq (orderly : w.Orderly) {a : Address} {i : Instance}
    (live : w.store.instances.get? a = some i) :
    (i.references : Int) = w.store.instanceBalance.get a + w.store.retainers a := by
  have count := orderly.books.counted (.reference a)
  simp only [Store.counts, live, orderly.reference_holders, List.count_nil, Nat.add_zero] at count
  exact count

/-- While no balance is negative, a handle never outlives an instance that it owns a reference to. -/
theorem Orderly.retained_live (orderly : w.Orderly)
    (balanced : ∀ a, 0 ≤ w.store.instanceBalance.get a) {h : HandleId} {r : HandleRecord}
    {a : Address} (live : w.store.handles.get? h = some r)
    (retained : r.attachment = some ⟨a, .retained⟩) : w.store.isLive a = true := by
  have some_retainer := Store.retainers_pos live retained
  have count := orderly.books.counted (.reference a)
  have balance := balanced a
  rw [orderly.reference_holders] at count
  cases found : w.store.instances.get? a with
  | some i => simp [Store.isLive, Table.contains, found]
  | none =>
    simp only [Store.counts, found, List.count_nil] at count
    omega

end World

/-- A request that may count a reference of the session itself, or run something that may. -/
def Request.balances : Request → Bool
  | .createDirect _ | .takeDirect _ | .giveBackDirect _ | .sinkDirect _ | .invoke _ _ _
  | .callHost _ _ | .assignGlobal _ _ | .perform _ => true
  | _ => false

@[simp]
theorem Store.claimAll_instanceBalance (claims : List Claim) (s : Store) :
    (s.claimAll claims).instanceBalance = s.instanceBalance :=
  claimAll_project (·.instanceBalance) (fun _ _ _ _ _ => rfl) claims s

theorem World.openHandle_instanceBalance (w : World) (info : Option Token)
    (attachment : Option Attachment) (keeper : Option HandleId) :
    (w.openHandle info attachment keeper).2.store.instanceBalance = w.store.instanceBalance := by
  have added (r : HandleRecord) :
      (w.store.addHandle r).2.instanceBalance = w.store.instanceBalance :=
    Store.claimAll_instanceBalance r.claims w.store
  simp only [openHandle]
  split
  · split
    · exact added _
    · rfl
  · exact added _

/-- Only direct calls change the balances. -/
theorem World.answer_instanceBalance (calls : Calls) (w : World) {r : Request}
    (other : r.balances = false) :
    (w.answer calls r).2.store.instanceBalance = w.store.instanceBalance := by
  cases r with
  | entry t | raise signal =>
    simp only [answer]
    split <;> rfl
  | liveInstance a | sink a | storeProperty a name slot =>
    simp only [answer, withInstance]
    split <;> rfl
  | hold c => exact Store.claimAll_instanceBalance [c] w.store
  | letGo c =>
    by_cases held : w.store.held.contains c = true
    · have answered : w.answer calls (.letGo c)
          = (w.withStore (w.store.dropHeld c)).release [c] := if_pos held
      rw [answered]
      exact Store.release_instanceBalance _ _
    · have answered : w.answer calls (.letGo c) = (.done (), w) := if_neg held
      rw [answered]
  | settle mark kept => exact Store.release_instanceBalance _ _
  | openHandle info attachment keeper => exact w.openHandle_instanceBalance info attachment keeper
  | openBlock info size => exact openHandle_instanceBalance _ _ _ _
  | attach a signal reaction =>
    simp only [answer, withInstance]
    split
    · exact Store.claimAll_instanceBalance reaction.claims w.store
    · rfl
  | storeGlobal name v | bind name v =>
    exact (Store.release_instanceBalance _ _).trans (Store.claimAll_instanceBalance v.claims w.store)
  | dropGlobal name | unbind name => exact Store.release_instanceBalance _ _
  | trace entries =>
    obtain ⟨top, reading⟩ := w.reading_answer calls (.trace entries) rfl
    rw [reading.store]
  | createDirect _ | takeDirect _ | giveBackDirect _ | sinkDirect _ | invoke _ _ _
  | callHost _ _ | assignGlobal _ _ | perform _ => simp [Request.balances] at other
  | _ => rfl

/-- What holds a share of a handle apart from the records of handles and connections. -/
inductive Root where
  /-- A variable. -/
  | binding (name : String)
  /-- A global. -/
  | setting (name : String)
  /-- A temporary. -/
  | temporary (h : HandleId)

namespace World

/-- Give back what a root holds. -/
def dropRoot (w : World) : Root → Outcome Unit × World
  | .binding name => ((w.unbind name).1.map fun _ => (), (w.unbind name).2)
  | .setting name => ((w.dropGlobal name).1.map fun _ => (), (w.dropGlobal name).2)
  | .temporary h =>
    if w.store.held.contains (.handle h) then
      (w.withStore (w.store.dropHeld (.handle h))).release [.handle h]
    else (.done (), w)

/-- Give back what some roots hold, one after the other. -/
def dropRoots (w : World) : List Root → List (Outcome Unit) × World
  | [] => ([], w)
  | root :: rest =>
    let (outcome, w) := w.dropRoot root
    let (outcomes, w) := w.dropRoots rest
    (outcome :: outcomes, w)

variable {w : World}

theorem release_faultless {owed : List Claim} (books : w.store.Accounted w.memory.next owed)
    (balanced : ∀ a, 0 ≤ w.store.instanceBalance.get a) : (w.release owed).1 = .done () := by
  simp only [release, books.faultless balanced, Outcome.ofFaults]

/-- Dropping a root never meets an instance that is gone, and the balances stay. -/
theorem Orderly.dropRoot (orderly : w.Orderly) (balanced : ∀ a, 0 ≤ w.store.instanceBalance.get a)
    (root : Root) :
    (w.dropRoot root).1 = .done () ∧ (w.dropRoot root).2.Orderly
      ∧ (w.dropRoot root).2.store.instanceBalance = w.store.instanceBalance := by
  cases root with
  | binding name =>
    refine ⟨?_, (orderly.unbind name).orderly, Store.release_instanceBalance _ _⟩
    have ended := release_faultless (w := w.withStore _) (orderly.unbound name) balanced
    simp only [World.dropRoot, World.unbind, ended, Outcome.map]
  | setting name =>
    refine ⟨?_, (orderly.dropGlobal name).orderly, Store.release_instanceBalance _ _⟩
    have ended := release_faultless (w := w.withStore _) (orderly.unset name) balanced
    simp only [World.dropRoot, World.dropGlobal, ended, Outcome.map]
  | temporary h =>
    simp only [World.dropRoot]
    split
    · next held =>
      have member := List.contains_iff_mem.mp held
      exact ⟨release_faultless (orderly.unheld member) balanced, (orderly.letGo member).orderly,
        Store.release_instanceBalance _ _⟩
    · exact ⟨rfl, orderly, rfl⟩

/-- Dropping roots in any order never meets an instance that is gone. -/
theorem Orderly.dropRoots (orderly : w.Orderly) (balanced : ∀ a, 0 ≤ w.store.instanceBalance.get a)
    (roots : List Root) : ∀ outcome ∈ (w.dropRoots roots).1, outcome = .done () := by
  induction roots generalizing w with
  | nil => simp [World.dropRoots]
  | cons root rest ih =>
    obtain ⟨ended, after, same⟩ := orderly.dropRoot balanced root
    intro outcome member
    rcases List.mem_cons.mp member with rfl | later
    · exact ended
    · exact ih after (same ▸ balanced) outcome later

end World

namespace Session

/-- The world after the last step is a boundary. -/
theorem last_mem_boundaries (depth : Nat) (steps : List Script.Step) (w : World) :
    (advanceAll depth steps w).2 ∈ boundaries depth steps w := by
  induction steps generalizing w with
  | nil => exact List.mem_singleton_self w
  | cons step rest ih => exact List.mem_append_right _ (ih (advance depth step w).2)

/-- An instance that a direct call made and that a variable retains. -/
def sample : List Script.Step :=
  [.declareNamespace "Demo" "1.0",
    .declare (.object "Demo" "Widget" none false) (some "Widget"),
    .newInstance "Widget" "w",
    .handle .retained (some (.existing "Widget")) (some "w") (some "h")]

end Session
end ObjectBridge
