import ObjectBridge.Proofs.Accounts

/-!
# Giving back keeps the books in order

Each turn of giving claims back pays one owed unit: the count goes down by one, and where it was the
last one, the claims of what ends are owed next.  So if the books were in order with the claims
owed, they are in order with nothing owed when all is given back.
-/

namespace ObjectBridge
namespace Store

variable {s s' : Store} {next : Address} {owed owed' : List Claim}

/-- Paying one unit keeps every count equal to its units. -/
theorem Accounted.counted_of_paid {d : Claim} (books : s.Accounted next (d :: owed))
    (moved : ∀ p, s'.holders p + owed'.countP p = s.holders p + owed.countP p)
    (others : ∀ c, c ≠ d → s'.counts c = s.counts c)
    (paid : ∀ n, s.counts d (n + 1) → s'.counts d n) (c : Claim) :
    s'.counts c (s'.holders (· == c) + owed'.count c) := by
  have count := books.counted c
  rw [List.count_cons] at count
  rw [List.count, moved]
  by_cases same : c = d
  · subst same
    simp only [beq_self_eq_true, if_true] at count
    exact paid _ count
  · simp only [beq_iff_eq, Ne.symm same, if_false] at count
    rw [others c same]
    exact count

/-- Paying one unit of what is no entry keeps the total. -/
theorem Accounted.total_of_paid {d : Claim} (books : s.Accounted next (d :: owed))
    (moved : ∀ p, s'.holders p + owed'.countP p = s.holders p + owed.countP p)
    (ledger : s'.ledger = s.ledger) (balance : s'.entryBalance = s.entryBalance)
    (other : d.isEntry = false) :
    s'.ledger.total = s'.entryBalance.total
      + (s'.holders Claim.isEntry + owed'.countP Claim.isEntry : Nat) := by
  have total := books.total
  rw [List.countP_cons_of_neg (by simp [other])] at total
  rw [ledger, balance, moved]
  exact total

theorem Accounted.pay_entry {t : Token} (books : s.Accounted next (.entry t :: owed)) :
    Accounted { s with ledger := s.ledger.giveBack t } next owed :=
  { books with
    counted := by
      refine books.counted_of_paid (fun p => rfl) (fun c other => ?_) fun n count => ?_
      · cases c with
        | entry u =>
          have different : u ≠ t := fun same => other (same ▸ rfl)
          funext n
          simp [counts, Tally.get_giveBack, different]
        | _ => rfl
      · simp only [counts, Tally.get_giveBack, if_true] at count ⊢
        omega
    total := by
      have total := books.total
      simp only [List.countP_cons, Claim.isEntry, if_true, Tally.total_giveBack, holders] at total ⊢
      omega }

theorem Accounted.pay_block {a : Address} (books : s.Accounted next (.block a :: owed)) :
    Accounted { s with blocks := s.blocks.erase a } next owed :=
  { books with
    counted := by
      refine books.counted_of_paid (fun p => rfl) (fun c other => ?_) fun n count => ?_
      · cases c with
        | block b =>
          have different : b ≠ a := fun same => other (same ▸ rfl)
          funext n
          simp [counts, List.count_erase_of_ne different]
        | _ => rfl
      · simp only [counts, List.count_erase_self] at count ⊢
        omega
    total := books.total_of_paid (fun p => rfl) rfl rfl rfl }

/-- A share of a handle that is gone counts for nothing. -/
theorem Accounted.pay_no_handle {h : HandleId} (books : s.Accounted next (.handle h :: owed))
    (gone : s.handles.get? h = none) : s.Accounted next owed :=
  { books with
    counted := by
      refine books.counted_of_paid (fun p => rfl) (fun c other => rfl) fun n count => ?_
      simp only [counts, gone] at count ⊢
      exact fun beyond => absurd (count beyond) (Nat.succ_ne_zero n)
    total := books.total_of_paid (fun p => rfl) rfl rfl rfl }

theorem Accounted.pay_last_handle {h : HandleId} {r : HandleRecord}
    (books : s.Accounted next (.handle h :: owed)) (live : s.handles.get? h = some r) :
    Accounted { s with handles := s.handles.erase h } next (r.claims ++ owed) := by
  have moved (p : Claim → Bool) :
      holders { s with handles := s.handles.erase h } p + (r.claims ++ owed).countP p
        = s.holders p + owed.countP p := by
    have weight := Table.weight_erase (fun r => r.claims.countP p) s.handles h r live
    simp only [holders, List.countP_append] at weight ⊢
    omega
  exact
    { books with
      counted := by
        refine books.counted_of_paid moved (fun c other => ?_) fun n count => ?_
        · cases c with
          | handle k =>
            have different : k ≠ h := fun same => other (same ▸ rfl)
            funext n
            simp only [counts, Table.get?_erase, different, if_false]
          | _ => rfl
        · have known := (books.handles h r live).2.1
          simp only [counts, Table.get?_erase, if_true]
          exact fun beyond => absurd known (Nat.not_lt.mpr beyond)
      total := books.total_of_paid moved rfl rfl rfl
      handles := fun k q found => books.handles k q (Table.get?_of_erase found) }

theorem Accounted.pay_handle {h : HandleId} {r : HandleRecord}
    (books : s.Accounted next (.handle h :: owed)) (live : s.handles.get? h = some r)
    (shared : ¬r.shares ≤ 1) :
    Accounted { s with handles := s.handles.set h { r with shares := r.shares - 1 } } next owed := by
  have moved (p : Claim → Bool) :
      holders { s with handles := s.handles.set h { r with shares := r.shares - 1 } } p
        + owed.countP p = s.holders p + owed.countP p := by
    have weight := Table.weight_set (fun r => r.claims.countP p) s.handles h r
      { r with shares := r.shares - 1 } live
    simp only [holders, HandleRecord.claims] at weight ⊢
    omega
  exact
    { books with
      counted := by
        refine books.counted_of_paid moved (fun c other => ?_) fun n count => ?_
        · cases c with
          | handle k =>
            have different : k ≠ h := fun same => other (same ▸ rfl)
            funext n
            simp only [counts, Table.get?_set, different, if_false]
          | _ => rfl
        · simp only [counts, Table.get?_set, live, if_true, Option.map_some] at count ⊢
          omega
      total := books.total_of_paid moved rfl rfl rfl
      handles := fun k q found => by
        rcases Table.get?_of_set found with ⟨rfl, rfl⟩ | old
        · exact ⟨Nat.sub_pos_of_lt (Nat.lt_of_not_le shared), (books.handles k r live).2⟩
        · exact books.handles k q old }

/-- A share of a connection record that is gone counts for nothing. -/
theorem Accounted.pay_no_closure {c : ClosureId} (books : s.Accounted next (.closure c :: owed))
    (gone : s.closures.get? c = none) : s.Accounted next owed :=
  { books with
    counted := by
      refine books.counted_of_paid (fun p => rfl) (fun d other => rfl) fun n count => ?_
      simp only [counts, gone] at count ⊢
      exact fun beyond => absurd (count beyond) (Nat.succ_ne_zero n)
    total := books.total_of_paid (fun p => rfl) rfl rfl rfl }

/-- The connections of the instances hold claims. -/
theorem namings_le_holders (s : Store) (c : ClosureId) :
    s.namings c ≤ s.holders (· == .closure c) := by
  simp only [namings, holders, List.count]
  omega

theorem Accounted.pay_last_closure {c : ClosureId} {r : Closure}
    (books : s.Accounted next (.closure c :: owed)) (live : s.closures.get? c = some r)
    (last : r.shares ≤ 1) :
    Accounted { s with closures := s.closures.erase c } next (r.reaction.claims ++ owed) := by
  have moved (p : Claim → Bool) :
      holders { s with closures := s.closures.erase c } p + (r.reaction.claims ++ owed).countP p
        = s.holders p + owed.countP p := by
    have weight := Table.weight_erase (fun r => r.reaction.claims.countP p) s.closures c r live
    simp only [holders, List.countP_append] at weight ⊢
    omega
  exact
    { books with
      counted := by
        refine books.counted_of_paid moved (fun d other => ?_) fun n count => ?_
        · cases d with
          | closure k =>
            have different : k ≠ c := fun same => other (same ▸ rfl)
            funext n
            simp only [counts, Table.get?_erase, different, if_false]
          | _ => rfl
        · have known := (books.closures c r live).2
          simp only [counts, Table.get?_erase, if_true]
          exact fun beyond => absurd known (Nat.not_lt.mpr beyond)
      total := books.total_of_paid moved rfl rfl rfl
      closures := fun k q found => books.closures k q (Table.get?_of_erase found)
      named := fun k => by
        have naming := books.named k
        by_cases same : k = c
        · -- The last share was the owed one, so no connection names the record.
          subst same
          have count := books.counted (.closure k)
          have bound := namings_le_holders s k
          simp only [counts, live, List.count_cons_self] at count
          have unnamed : s.namings k = 0 := by omega
          exact unnamed.trans_le (Nat.zero_le _)
        · simp only [Table.contains, Table.get?_erase, same, if_false]
          exact naming }

theorem Accounted.pay_closure {c : ClosureId} {r : Closure}
    (books : s.Accounted next (.closure c :: owed)) (live : s.closures.get? c = some r)
    (shared : ¬r.shares ≤ 1) :
    Accounted { s with closures := s.closures.set c { r with shares := r.shares - 1 } } next
      owed := by
  have moved (p : Claim → Bool) :
      holders { s with closures := s.closures.set c { r with shares := r.shares - 1 } } p
        + owed.countP p = s.holders p + owed.countP p := by
    have weight := Table.weight_set (fun r => r.reaction.claims.countP p) s.closures c r
      { r with shares := r.shares - 1 } live
    simp only [holders] at weight ⊢
    omega
  exact
    { books with
      counted := by
        refine books.counted_of_paid moved (fun d other => ?_) fun n count => ?_
        · cases d with
          | closure k =>
            have different : k ≠ c := fun same => other (same ▸ rfl)
            funext n
            simp only [counts, Table.get?_set, different, if_false]
          | _ => rfl
        · simp only [counts, Table.get?_set, live, if_true, Option.map_some] at count ⊢
          omega
      total := books.total_of_paid moved rfl rfl rfl
      closures := fun k q found => by
        rcases Table.get?_of_set found with ⟨rfl, rfl⟩ | old
        · exact ⟨Nat.sub_pos_of_lt (Nat.lt_of_not_le shared), (books.closures k r live).2⟩
        · exact books.closures k q old
      named := fun k => by
        rw [Table.contains_set]
        exact books.named k }

/-- A reference to an instance that is gone was given back too often. -/
theorem Accounted.pay_no_reference {a : Address} (books : s.Accounted next (.reference a :: owed))
    (gone : s.instances.get? a = none) : s.Accounted next owed :=
  { books with
    counted := by
      refine books.counted_of_paid (fun p => rfl) (fun c other => rfl) fun n count => ?_
      simp only [counts, gone] at count ⊢
      omega
    total := books.total_of_paid (fun p => rfl) rfl rfl rfl }

theorem Accounted.pay_last_reference {a : Address} {i : Instance}
    (books : s.Accounted next (.reference a :: owed)) (live : s.instances.get? a = some i)
    (last : i.references ≤ 1) : (s.finalize a).Accounted next (i.claims ++ owed) := by
  have moved (p : Claim → Bool) :
      (s.finalize a).holders p + (i.claims ++ owed).countP p = s.holders p + owed.countP p := by
    have weight := Table.weight_erase (fun i => i.claims.countP p) s.instances a i live
    simp only [holders, finalize, List.countP_append] at weight ⊢
    omega
  exact
    { books with
      counted := by
        refine books.counted_of_paid moved (fun c other => ?_) fun n count => ?_
        · cases c with
          | reference b =>
            have different : b ≠ a := fun same => other (same ▸ rfl)
            funext n
            simp only [counts, finalize, Table.get?_erase, different, if_false]
          | _ => rfl
        · simp only [counts, live, finalize, Table.get?_erase, if_true] at count ⊢
          omega
      total := books.total_of_paid moved rfl rfl rfl
      instances := fun b j found => books.instances b j (Table.get?_of_erase found)
      named := fun c => by
        have weight :=
          Table.weight_erase (fun i => i.claims.count (.closure c)) s.instances a i live
        refine Nat.le_trans ?_ (books.named c)
        simp only [namings, finalize] at weight ⊢
        omega
      made := by
        have size := Table.size_erase s.instances live
        have made := books.made
        simp only [Store.live, finalize] at size made ⊢
        omega }

theorem Accounted.pay_reference {a : Address} {i : Instance}
    (books : s.Accounted next (.reference a :: owed)) (live : s.instances.get? a = some i)
    (shared : ¬i.references ≤ 1) :
    Accounted { s with instances := s.instances.set a { i with references := i.references - 1 } }
      next owed := by
  have moved (p : Claim → Bool) :
      holders { s with instances := s.instances.set a { i with references := i.references - 1 } } p
        + owed.countP p = s.holders p + owed.countP p := by
    have weight := Table.weight_set (fun i => i.claims.countP p) s.instances a i
      { i with references := i.references - 1 } live
    simp only [holders, Instance.claims] at weight ⊢
    omega
  exact
    { books with
      counted := by
        refine books.counted_of_paid moved (fun c other => ?_) fun n count => ?_
        · cases c with
          | reference b =>
            have different : b ≠ a := fun same => other (same ▸ rfl)
            funext n
            simp only [counts, Table.get?_set, different, if_false]
          | _ => rfl
        · simp only [counts, Table.get?_set, live, if_true, Option.map_some] at count ⊢
          omega
      total := books.total_of_paid moved rfl rfl rfl
      instances := fun b j found => by
        rcases Table.get?_of_set found with ⟨rfl, rfl⟩ | old
        · exact ⟨Nat.sub_pos_of_lt (Nat.lt_of_not_le shared), (books.instances b i live).2⟩
        · exact books.instances b j old
      named := fun c => by
        have weight := Table.weight_set (fun i => i.claims.count (.closure c)) s.instances a i
          { i with references := i.references - 1 } live
        refine Nat.le_trans ?_ (books.named c)
        simp only [namings, Instance.claims] at weight ⊢
        omega
      made := by
        have made := books.made
        simp only [Store.live, Table.size_set] at made ⊢
        exact made }

/-- What giving claims back does not touch stays as it was. -/
theorem release_project {β : Type} (f : Store → β)
    (kept : ∀ s ledger instances handles closures blocks finalized,
      f { s with
          ledger := ledger
          instances := instances
          handles := handles
          closures := closures
          blocks := blocks
          finalized := finalized } = f s)
    (claims : List Claim) (s : Store) : f (s.release claims).2 = f s := by
  fun_induction Store.release claims s with
  | case1 => rfl
  | case2 s t rest ih => exact ih.trans (kept s _ _ _ _ _ _)
  | case3 s a rest ih => exact ih.trans (kept s _ _ _ _ _ _)
  | case4 s h rest gone ih => exact ih
  | case5 s h rest r live last ih => exact ih.trans (kept s _ _ _ _ _ _)
  | case6 s h rest r live shared ih => exact ih.trans (kept s _ _ _ _ _ _)
  | case7 s c rest gone ih => exact ih
  | case8 s c rest r live last ih => exact ih.trans (kept s _ _ _ _ _ _)
  | case9 s c rest r live shared ih => exact ih.trans (kept s _ _ _ _ _ _)
  | case10 s a rest gone faults s' equal ih => rwa [equal] at ih
  | case11 s a rest i live last ih => exact ih.trans (kept s _ _ _ _ _ _)
  | case12 s a rest i live shared ih => exact ih.trans (kept s _ _ _ _ _ _)

@[simp]
theorem release_held (claims : List Claim) (s : Store) : (s.release claims).2.held = s.held :=
  release_project (·.held) (fun _ _ _ _ _ _ _ => rfl) claims s

@[simp]
theorem release_bindings (claims : List Claim) (s : Store) :
    (s.release claims).2.bindings = s.bindings :=
  release_project (·.bindings) (fun _ _ _ _ _ _ _ => rfl) claims s

@[simp]
theorem release_globals (claims : List Claim) (s : Store) :
    (s.release claims).2.globals = s.globals :=
  release_project (·.globals) (fun _ _ _ _ _ _ _ => rfl) claims s

@[simp]
theorem release_horizon (claims : List Claim) (s : Store) :
    (s.release claims).2.horizon = s.horizon :=
  release_project horizon (fun _ _ _ _ _ _ _ => rfl) claims s

@[simp]
theorem release_instanceBalance (claims : List Claim) (s : Store) :
    (s.release claims).2.instanceBalance = s.instanceBalance :=
  release_project (·.instanceBalance) (fun _ _ _ _ _ _ _ => rfl) claims s

@[simp]
theorem release_entryBalance (claims : List Claim) (s : Store) :
    (s.release claims).2.entryBalance = s.entryBalance :=
  release_project (·.entryBalance) (fun _ _ _ _ _ _ _ => rfl) claims s

/-- Giving claims back, with everything that ends with them, leaves the books in order. -/
theorem Accounted.release (books : s.Accounted next owed) : (s.release owed).2.Accounted next [] := by
  fun_induction Store.release owed s with
  | case1 => exact books
  | case2 s t rest ih => exact ih books.pay_entry
  | case3 s a rest ih => exact ih books.pay_block
  | case4 s h rest gone ih => exact ih (books.pay_no_handle gone)
  | case5 s h rest r live last ih => exact ih (books.pay_last_handle live)
  | case6 s h rest r live shared ih => exact ih (books.pay_handle live shared)
  | case7 s c rest gone ih => exact ih (books.pay_no_closure gone)
  | case8 s c rest r live last ih => exact ih (books.pay_last_closure live last)
  | case9 s c rest r live shared ih => exact ih (books.pay_closure live shared)
  | case10 s a rest gone faults s' equal ih =>
      have books' := ih (books.pay_no_reference gone)
      rwa [equal] at books'
  | case11 s a rest i live last ih => exact ih (books.pay_last_reference live last)
  | case12 s a rest i live shared ih => exact ih (books.pay_reference live shared)

end Store
end ObjectBridge
