import ObjectBridge.Machine
import ObjectBridge.Proofs.Paying

/-!
# Claiming keeps the books in order

A new unit is first owed: the count goes up, and no holder is named yet.  It is then given to a
holder, or to the balance of the direct calls.  Every operation that makes or shares a counted thing
is a sequence of such steps.
-/

namespace ObjectBridge
namespace Store

variable {s s' : Store} {next next' : Address} {owed owed' : List Claim} {z : Horizon}

/-- A further unit keeps every count equal to its units. -/
theorem Accounted.counted_of_grown {d : Claim} (books : s.Accounted next owed)
    (moved : ∀ p, s'.holders p + owed'.countP p = s.holders p + (d :: owed).countP p)
    (others : ∀ c, c ≠ d → s'.counts c = s.counts c)
    (grown : s.counts d (s.holders (· == d) + owed.count d) →
      s'.counts d (s.holders (· == d) + owed.count d + 1)) (c : Claim) :
    s'.counts c (s'.holders (· == c) + owed'.count c) := by
  have count := books.counted c
  rw [List.count, moved, ← List.count, List.count_cons]
  by_cases same : c = d
  · subst same
    simp only [beq_self_eq_true, if_true]
    exact grown count
  · simp only [beq_iff_eq, Ne.symm same, if_false]
    rw [others c same]
    exact count

/-- A further unit of what is no entry keeps the total. -/
theorem Accounted.total_of_grown {d : Claim} (books : s.Accounted next owed)
    (moved : ∀ p, s'.holders p + owed'.countP p = s.holders p + (d :: owed).countP p)
    (ledger : s'.ledger = s.ledger) (balance : s'.entryBalance = s.entryBalance)
    (other : d.isEntry = false) :
    s'.ledger.total = s'.entryBalance.total
      + (s'.holders Claim.isEntry + owed'.countP Claim.isEntry : Nat) := by
  rw [ledger, balance, moved, List.countP_cons_of_neg (by simp [other])]
  exact books.total

/-- Units that change their holders stay counted. -/
theorem Accounted.moved (books : s.Accounted next owed) {held : List Claim}
    {bindings globals : List (String × Value)}
    (units : ∀ p, held.countP p + (valueClaims bindings).countP p + (valueClaims globals).countP p
        + owed'.countP p
      = s.held.countP p + (valueClaims s.bindings).countP p + (valueClaims s.globals).countP p
        + owed.countP p)
    (bound : (bindings.map Prod.fst).Nodup) (stored : (globals.map Prod.fst).Nodup) :
    Accounted { s with held := held, bindings := bindings, globals := globals } next owed' := by
  have same (p : Claim → Bool) :
      holders { s with held := held, bindings := bindings, globals := globals } p + owed'.countP p
        = s.holders p + owed.countP p := by
    have unit := units p
    simp only [holders] at unit ⊢
    omega
  exact
    { books with
      counted := fun c => by
        have count := books.counted c
        rw [List.count, ← same, ← List.count] at count
        exact count
      total := by
        have total := books.total
        rw [← same] at total
        exact total
      bindings := bound
      globals := stored }

/-- The order in which claims are owed does not matter. -/
theorem Accounted.reorder (books : s.Accounted next owed) (order : owed.Perm owed') :
    s.Accounted next owed' :=
  { books with
    counted := fun c => order.count_eq c ▸ books.counted c
    total := order.countP_eq Claim.isEntry ▸ books.total }

/-- An owed unit is given to the temporaries. -/
theorem Accounted.hold_owed {c : Claim} (books : s.Accounted next (c :: owed)) :
    Accounted { s with held := c :: s.held } next owed := by
  refine books.moved (fun p => ?_) books.bindings books.globals
  simp only [List.countP_cons]
  omega

/-- More storage may be reserved. -/
theorem Accounted.reserve (books : s.Accounted next owed) (more : next ≤ next') :
    s.Accounted next' owed :=
  { books with
    storage := Nat.le_trans books.storage more
    instances := fun a i live =>
      ⟨(books.instances a i live).1, Nat.lt_of_lt_of_le (books.instances a i live).2 more⟩
    balanced := fun a free => books.balanced a (Nat.le_trans more free) }

theorem Accounted.claim_entry (books : s.Accounted next owed) (t : Token) :
    (s.claim (.entry t)).Accounted next (.entry t :: owed) :=
  { books with
    counted := by
      refine books.counted_of_grown (fun p => rfl) (fun c other => ?_) fun count => ?_
      · cases c with
        | entry u =>
          have different : u ≠ t := fun same => other (same ▸ rfl)
          funext n
          simp [counts, claim, Tally.get_take, different]
        | _ => rfl
      · simp only [counts, claim, Tally.get_take, if_true] at count ⊢
        omega
    total := by
      have total := books.total
      simp only [List.countP_cons, Claim.isEntry, claim, if_true, Tally.total_take, holders]
        at total ⊢
      omega }

theorem Accounted.claim_handle {h : HandleId} (books : s.Accounted next owed)
    (known : h < s.nextHandle) : (s.claim (.handle h)).Accounted next (.handle h :: owed) := by
  cases live : s.handles.get? h with
  | none =>
    have same : s.claim (.handle h) = s := by simp [claim, live]
    rw [same]
    exact
      { books with
        counted := by
          refine books.counted_of_grown (fun p => rfl) (fun c other => rfl) fun count => ?_
          simp only [counts, live]
          exact fun beyond => absurd known (Nat.not_lt.mpr beyond)
        total := books.total_of_grown (fun p => rfl) rfl rfl rfl }
  | some r =>
    have shared : s.claim (.handle h)
        = { s with handles := s.handles.set h { r with shares := r.shares + 1 } } := by
      simp [claim, live]
    have moved (p : Claim → Bool) :
        (s.claim (.handle h)).holders p + (Claim.handle h :: owed).countP p
          = s.holders p + (Claim.handle h :: owed).countP p := by
      have weight := Table.weight_set (fun r => r.claims.countP p) s.handles h r
        { r with shares := r.shares + 1 } live
      rw [shared]
      simp only [holders, HandleRecord.claims] at weight ⊢
      omega
    rw [shared] at moved ⊢
    exact
      { books with
        counted := by
          refine books.counted_of_grown moved (fun c other => ?_) fun count => ?_
          · cases c with
            | handle k =>
              have different : k ≠ h := fun same => other (same ▸ rfl)
              funext n
              simp only [counts, Table.get?_set, different, if_false]
            | _ => rfl
          · simp only [counts, Table.get?_set, live, if_true, Option.map_some] at count ⊢
            omega
        total := books.total_of_grown moved rfl rfl rfl
        handles := fun k q found => by
          rcases Table.get?_of_set found with ⟨rfl, rfl⟩ | old
          · exact ⟨Nat.succ_pos _, (books.handles k r live).2⟩
          · exact books.handles k q old }

theorem Accounted.claim_closure {c : ClosureId} (books : s.Accounted next owed)
    (known : c < s.nextClosure) : (s.claim (.closure c)).Accounted next (.closure c :: owed) := by
  cases live : s.closures.get? c with
  | none =>
    have same : s.claim (.closure c) = s := by simp [claim, live]
    rw [same]
    exact
      { books with
        counted := by
          refine books.counted_of_grown (fun p => rfl) (fun d other => rfl) fun count => ?_
          simp only [counts, live]
          exact fun beyond => absurd known (Nat.not_lt.mpr beyond)
        total := books.total_of_grown (fun p => rfl) rfl rfl rfl }
  | some r =>
    have shared : s.claim (.closure c)
        = { s with closures := s.closures.set c { r with shares := r.shares + 1 } } := by
      simp [claim, live]
    have moved (p : Claim → Bool) :
        (s.claim (.closure c)).holders p + (Claim.closure c :: owed).countP p
          = s.holders p + (Claim.closure c :: owed).countP p := by
      have weight := Table.weight_set (fun r => r.reaction.claims.countP p) s.closures c r
        { r with shares := r.shares + 1 } live
      rw [shared]
      simp only [holders] at weight ⊢
      omega
    rw [shared] at moved ⊢
    exact
      { books with
        counted := by
          refine books.counted_of_grown moved (fun d other => ?_) fun count => ?_
          · cases d with
            | closure k =>
              have different : k ≠ c := fun same => other (same ▸ rfl)
              funext n
              simp only [counts, Table.get?_set, different, if_false]
            | _ => rfl
          · simp only [counts, Table.get?_set, live, if_true, Option.map_some] at count ⊢
            omega
        total := books.total_of_grown moved rfl rfl rfl
        closures := fun k q found => by
          rcases Table.get?_of_set found with ⟨rfl, rfl⟩ | old
          · exact ⟨Nat.succ_pos _, (books.closures k r live).2⟩
          · exact books.closures k q old
        named := fun k => by
          rw [Table.contains_set]
          exact books.named k }

/-- A change of an instance that keeps its references changes no count. -/
theorem counts_setInstance {a : Address} {i : Instance} (i' : Instance) (live : s.instances.get? a = some i)
    (same : i'.references = i.references) (c : Claim) :
    (s.setInstance a i').counts c = s.counts c := by
  cases c with
  | reference b =>
    funext n
    by_cases equal : b = a
    · subst equal
      simp only [counts, setInstance, Table.get?_set, if_true, live, Option.map_some, same]
    · simp only [counts, setInstance, Table.get?_set, equal, if_false]
  | _ => rfl

theorem Accounted.claim_reference {a : Address} {i : Instance} (books : s.Accounted next owed)
    (live : s.instances.get? a = some i) :
    (s.setInstance a { i with references := i.references + 1 }).Accounted next
      (.reference a :: owed) := by
  have moved (p : Claim → Bool) :
      (s.setInstance a { i with references := i.references + 1 }).holders p
          + (Claim.reference a :: owed).countP p
        = s.holders p + (Claim.reference a :: owed).countP p := by
    have weight := Table.weight_set (fun i => i.claims.countP p) s.instances a i
      { i with references := i.references + 1 } live
    simp only [holders, setInstance, Instance.claims] at weight ⊢
    omega
  exact
    { books with
      counted := by
        refine books.counted_of_grown moved (fun c other => ?_) fun count => ?_
        · cases c with
          | reference b =>
            have different : b ≠ a := fun same => other (same ▸ rfl)
            funext n
            simp only [counts, setInstance, Table.get?_set, different, if_false]
          | _ => rfl
        · simp only [counts, setInstance, Table.get?_set, live, if_true, Option.map_some]
            at count ⊢
          omega
      total := books.total_of_grown moved rfl rfl rfl
      instances := fun b j found => by
        rcases Table.get?_of_set found with ⟨rfl, rfl⟩ | old
        · exact ⟨Nat.succ_pos _, (books.instances b i live).2⟩
        · exact books.instances b j old
      named := fun c => by
        have weight := Table.weight_set (fun i => i.claims.count (.closure c)) s.instances a i
          { i with references := i.references + 1 } live
        refine Nat.le_trans ?_ (books.named c)
        simp only [namings, setInstance, Instance.claims] at weight ⊢
        omega
      made := by
        have made := books.made
        simp only [Store.live, setInstance, Table.size_set] at made ⊢
        exact made }

/-- What claiming does not touch stays as it was. -/
theorem claimAll_project {β : Type} (f : Store → β)
    (kept : ∀ s ledger instances handles closures,
      f { s with ledger := ledger, instances := instances, handles := handles, closures := closures }
        = f s) (claims : List Claim) (s : Store) : f (s.claimAll claims) = f s := by
  have single (c : Claim) (s : Store) : f (s.claim c) = f s := by
    cases c with
    | entry t => exact kept s _ _ _ _
    | block a => rfl
    | handle h =>
      simp only [claim]
      split
      · exact kept s _ _ _ _
      · rfl
    | reference a =>
      simp only [claim]
      split
      · exact kept s _ _ _ _
      · rfl
    | closure c =>
      simp only [claim]
      split
      · exact kept s _ _ _ _
      · rfl
  induction claims generalizing s with
  | nil => rfl
  | cons c rest ih => exact (ih (s.claim c)).trans (single c s)

@[simp]
theorem claimAll_held (claims : List Claim) (s : Store) : (s.claimAll claims).held = s.held :=
  claimAll_project (·.held) (fun _ _ _ _ _ => rfl) claims s

@[simp]
theorem claimAll_bindings (claims : List Claim) (s : Store) :
    (s.claimAll claims).bindings = s.bindings :=
  claimAll_project (·.bindings) (fun _ _ _ _ _ => rfl) claims s

@[simp]
theorem claimAll_globals (claims : List Claim) (s : Store) :
    (s.claimAll claims).globals = s.globals :=
  claimAll_project (·.globals) (fun _ _ _ _ _ => rfl) claims s

@[simp]
theorem claimAll_horizon (claims : List Claim) (s : Store) :
    (s.claimAll claims).horizon = s.horizon :=
  claimAll_project horizon (fun _ _ _ _ _ => rfl) claims s

@[simp]
theorem claim_horizon (c : Claim) (s : Store) : (s.claim c).horizon = s.horizon :=
  claimAll_horizon [c] s

@[simp]
theorem claim_held (c : Claim) (s : Store) : (s.claim c).held = s.held :=
  claimAll_held [c] s

theorem Accounted.claim {c : Claim} (books : s.Accounted next owed) (known : c.Known s.horizon) :
    (s.claim c).Accounted next (c :: owed) := by
  cases c with
  | entry t => exact books.claim_entry t
  | handle h => exact books.claim_handle known
  | closure c => exact books.claim_closure known
  | reference a => exact known.elim
  | block a => exact known.elim

theorem Accounted.claimAll {claims : List Claim} (books : s.Accounted next owed)
    (known : ∀ c ∈ claims, c.Known s.horizon) :
    (s.claimAll claims).Accounted next (claims ++ owed) := by
  induction claims generalizing s owed with
  | nil => exact books
  | cons c rest ih =>
    have first := books.claim (known c List.mem_cons_self)
    have others := ih first fun d member => by
      rw [claim_horizon]
      exact known d (List.mem_cons_of_mem _ member)
    exact others.reorder List.perm_middle

/-- A temporary claim keeps the books in order. -/
theorem Accounted.hold {c : Claim} (books : s.Accounted next owed) (known : c.Known s.horizon) :
    (s.hold c).Accounted next owed :=
  (books.claim known).hold_owed

/-- A new handle whose claims are owed takes them, and is itself owed. -/
theorem Accounted.insert_handle {r : HandleRecord} (books : s.Accounted next (r.claims ++ owed))
    (single : r.shares = 1) (older : ∀ k, r.keeper = some k → k < s.nextHandle) :
    Accounted
      { s with handles := s.handles.insert s.nextHandle r, nextHandle := s.nextHandle + 1 } next
      (.handle s.nextHandle :: owed) := by
  have fresh := books.handle_fresh
  have moved (p : Claim → Bool) :
      holders { s with handles := s.handles.insert s.nextHandle r, nextHandle := s.nextHandle + 1 } p
          + (Claim.handle s.nextHandle :: owed).countP p
        = s.holders p + (.handle s.nextHandle :: (r.claims ++ owed)).countP p := by
    have weight := Table.weight_insert (fun r => r.claims.countP p) s.handles fresh r
    simp only [holders, List.countP_cons, List.countP_append] at weight ⊢
    omega
  exact
    { books with
      counted := by
        refine books.counted_of_grown moved (fun c other => ?_) fun count => ?_
        · cases c with
          | handle k =>
            have different : k ≠ s.nextHandle := fun same => other (same ▸ rfl)
            funext n
            simp only [counts, Table.get?_insert s.handles fresh, different, if_false]
            split
            · rfl
            · simp only [eq_iff_iff]
              constructor
              · exact fun none_left beyond =>
                  none_left (Nat.lt_of_le_of_ne beyond (Ne.symm different))
              · exact fun none_left beyond => none_left (Nat.le_of_succ_le beyond)
          | _ => rfl
        · simp only [counts, fresh, Nat.le_refl, true_implies] at count
          simp only [counts, Table.get?_insert s.handles fresh, if_true]
          omega
      total := books.total_of_grown moved rfl rfl rfl
      handles := fun k q found => by
        rcases Table.get?_of_insert fresh found with ⟨rfl, rfl⟩ | old
        · exact ⟨by omega, Nat.lt_succ_self _, older⟩
        · have known := books.handles k q old
          exact ⟨known.1, Nat.lt_succ_of_lt known.2.1, known.2.2⟩ }

@[simp]
theorem claimAll_nextHandle (claims : List Claim) (s : Store) :
    (s.claimAll claims).nextHandle = s.nextHandle :=
  claimAll_project (·.nextHandle) (fun _ _ _ _ _ => rfl) claims s

@[simp]
theorem claimAll_nextClosure (claims : List Claim) (s : Store) :
    (s.claimAll claims).nextClosure = s.nextClosure :=
  claimAll_project (·.nextClosure) (fun _ _ _ _ _ => rfl) claims s

/-- A new handle keeps the books in order once its claims are counted. -/
theorem Accounted.addHandle {r : HandleRecord}
    (books : (s.claimAll r.claims).Accounted next (r.claims ++ owed)) (single : r.shares = 1)
    (older : ∀ k, r.keeper = some k → k < s.nextHandle) :
    (s.addHandle r).2.Accounted next owed := by
  rw [← claimAll_nextHandle r.claims s] at older
  have made := (books.insert_handle single older).hold_owed
  rw [claimAll_nextHandle] at made
  exact made

@[simp]
theorem addHandle_horizon (r : HandleRecord) (s : Store) :
    (s.addHandle r).2.horizon = (s.nextHandle + 1, s.nextClosure) := by
  simp [Store.addHandle, horizon]

@[simp]
theorem addHandle_held (r : HandleRecord) (s : Store) :
    (s.addHandle r).2.held = .handle s.nextHandle :: s.held := by
  simp [Store.addHandle]

/-- Claiming for a connection record leaves the connections of every instance. -/
theorem claimAll_instances {claims : List Claim} (s : Store) (known : ∀ c ∈ claims, c.Known z) :
    (s.claimAll claims).instances = s.instances := by
  induction claims generalizing s with
  | nil => rfl
  | cons c rest ih =>
    refine (ih (s.claim c) fun d member => known d (List.mem_cons_of_mem _ member)).trans ?_
    have first := known c List.mem_cons_self
    cases c with
    | entry t => rfl
    | reference a => exact first.elim
    | block a => rfl
    | handle h =>
      simp only [Store.claim]
      split <;> rfl
    | closure c =>
      simp only [Store.claim]
      split <;> rfl

/-- A new connection record whose claims are owed takes them, and is itself owed. -/
theorem Accounted.insert_closure {r : Closure}
    (books : s.Accounted next (r.reaction.claims ++ owed)) (single : r.shares = 1) :
    Accounted
      { s with closures := s.closures.insert s.nextClosure r, nextClosure := s.nextClosure + 1 } next
      (.closure s.nextClosure :: owed) := by
  have fresh := books.closure_fresh
  have moved (p : Claim → Bool) :
      holders
          { s with closures := s.closures.insert s.nextClosure r, nextClosure := s.nextClosure + 1 } p
          + (Claim.closure s.nextClosure :: owed).countP p
        = s.holders p + (.closure s.nextClosure :: (r.reaction.claims ++ owed)).countP p := by
    have weight := Table.weight_insert (fun r => r.reaction.claims.countP p) s.closures fresh r
    simp only [holders, List.countP_cons, List.countP_append] at weight ⊢
    omega
  exact
    { books with
      counted := by
        refine books.counted_of_grown moved (fun d other => ?_) fun count => ?_
        · cases d with
          | closure k =>
            have different : k ≠ s.nextClosure := fun same => other (same ▸ rfl)
            funext n
            simp only [counts, Table.get?_insert s.closures fresh, different, if_false]
            split
            · rfl
            · simp only [eq_iff_iff]
              constructor
              · exact fun none_left beyond =>
                  none_left (Nat.lt_of_le_of_ne beyond (Ne.symm different))
              · exact fun none_left beyond => none_left (Nat.le_of_succ_le beyond)
          | _ => rfl
        · simp only [counts, fresh, Nat.le_refl, true_implies] at count
          simp only [counts, Table.get?_insert s.closures fresh, if_true]
          omega
      total := books.total_of_grown moved rfl rfl rfl
      closures := fun k q found => by
        rcases Table.get?_of_insert fresh found with ⟨rfl, rfl⟩ | old
        · exact ⟨by omega, Nat.lt_succ_self _⟩
        · have known := books.closures k q old
          exact ⟨known.1, Nat.lt_succ_of_lt known.2⟩
      named := fun k => by
        refine Nat.le_trans (books.named k) ?_
        simp only [Table.contains, Table.get?_insert s.closures fresh]
        by_cases same : k = s.nextClosure
        · subst same
          simp [fresh]
        · simp only [same, if_false]
          exact Nat.le_refl _ }

/-- The first connection that names a connection record takes an owed share of it. -/
theorem Accounted.insert_connection {a : Address} {i : Instance} {connection : Connection}
    (books : s.Accounted next (.closure connection.closure :: owed))
    (live : s.instances.get? a = some i) (unnamed : s.namings connection.closure = 0)
    (recorded : s.closures.contains connection.closure = true) :
    (s.setInstance a { i with connections := i.connections ++ [connection] }).Accounted next
      owed := by
  have moved (p : Claim → Bool) :
      (s.setInstance a { i with connections := i.connections ++ [connection] }).holders p
          + owed.countP p
        = s.holders p + (.closure connection.closure :: owed).countP p := by
    have weight := Table.weight_set (fun i => i.claims.countP p) s.instances a i
      { i with connections := i.connections ++ [connection] } live
    simp only [holders, setInstance, Instance.claims, List.map_append, List.countP_append, List.map_cons,
      List.map_nil, List.countP_cons, List.countP_nil] at weight ⊢
    omega
  have same := counts_setInstance { i with connections := i.connections ++ [connection] } live rfl
  exact
    { books with
      counted := fun c => by
        rw [same, List.count, moved]
        exact books.counted c
      total := by
        rw [moved]
        exact books.total
      instances := fun b j found => by
        rcases Table.get?_of_set found with ⟨rfl, rfl⟩ | old
        · exact books.instances b i live
        · exact books.instances b j old
      named := fun c => by
        have weight := Table.weight_set (fun i => i.claims.count (.closure c)) s.instances a i
          { i with connections := i.connections ++ [connection] } live
        simp only [Instance.claims, List.map_append, List.count_append, List.map_cons, List.map_nil,
          List.count_cons, List.count_nil, beq_iff_eq, Claim.closure.injEq] at weight
        by_cases equal : connection.closure = c
        · subst equal
          simp only [namings, setInstance, Instance.claims] at unnamed ⊢
          simp only [recorded, if_true] at weight ⊢
          omega
        · refine Nat.le_trans ?_ (books.named c)
          simp only [namings, setInstance, Instance.claims]
          simp only [equal, if_false] at weight
          omega
      made := by
        have made := books.made
        simp only [Store.live, setInstance, Table.size_set] at made ⊢
        exact made }

theorem Accounted.addConnection {a : Address} {i : Instance} {reaction : Reaction}
    (books : s.Accounted next owed) (live : s.instances.get? a = some i)
    (known : ∀ c ∈ reaction.claims, c.Known s.horizon) (signal : String) :
    (s.addConnection a i signal reaction).2.Accounted next owed := by
  have unnamed : s.namings s.nextClosure = 0 := by
    have naming := books.named s.nextClosure
    simp only [Table.contains, books.closure_fresh, Option.isSome_none] at naming
    exact Nat.le_zero.mp naming
  have claimed := books.claimAll known
  have recorded := Accounted.insert_closure (r := { reaction := reaction }) claimed rfl
  have fresh := claimed.closure_fresh
  rw [claimAll_nextClosure] at recorded fresh
  let connection : Connection :=
    { id := s.nextConnection, signal := signal, closure := s.nextClosure }
  have connected := Accounted.insert_connection (a := a) (i := i)
    (show Accounted _ next (.closure connection.closure :: owed) from recorded)
    (by simp only [claimAll_instances s known]; exact live)
    (by simp only [namings, claimAll_instances s known]; exact unnamed)
    (by simp only [connection, Table.contains, Table.get?_insert _ fresh, if_true,
      Option.isSome_some])
  exact
    { connected with }

/-- A change of an instance that keeps its references and its connections keeps the books in
order. -/
theorem Accounted.setInstance {a : Address} {i i' : Instance} (books : s.Accounted next owed)
    (live : s.instances.get? a = some i) (references : i'.references = i.references)
    (connections : i'.connections = i.connections) :
    (s.setInstance a i').Accounted next owed := by
  have claims : i'.claims = i.claims := by simp only [Instance.claims, connections]
  have same (p : Claim → Bool) : (s.setInstance a i').holders p = s.holders p := by
    have weight := Table.weight_set (fun i => i.claims.countP p) s.instances a i i' live
    simp only [claims] at weight
    simp only [holders, Store.setInstance]
    omega
  exact
    { books with
      counted := fun c => by
        rw [counts_setInstance i' live references, same]
        exact books.counted c
      total := by
        rw [same]
        exact books.total
      instances := fun b j found => by
        rcases Table.get?_of_set found with ⟨rfl, rfl⟩ | old
        · exact references ▸ books.instances b i live
        · exact books.instances b j old
      named := fun c => by
        have weight := Table.weight_set (fun i => i.claims.count (.closure c)) s.instances a i i' live
        refine Nat.le_trans ?_ (books.named c)
        simp only [claims] at weight
        simp only [namings, Store.setInstance]
        omega
      made := by
        have made := books.made
        simp only [Store.live, Store.setInstance, Table.size_set] at made ⊢
        exact made }

/-- A new instance at an address that was not reserved has one owed reference. -/
theorem Accounted.addInstance {a : Address} (books : s.Accounted a owed) (more : a < next)
    (number : TypeNumber) (floating : Bool) :
    (s.addInstance a number floating).Accounted next (.reference a :: owed) := by
  have fresh := books.unreserved (Nat.le_refl a)
  have moved (p : Claim → Bool) :
      (s.addInstance a number floating).holders p + (Claim.reference a :: owed).countP p
        = s.holders p + (Claim.reference a :: owed).countP p := by
    have weight := Table.weight_insert (fun i => i.claims.countP p) s.instances fresh
      { number := number, floating := floating }
    simp only [holders, Store.addInstance, Instance.claims, List.map_nil, List.countP_nil]
      at weight ⊢
    omega
  exact
    { books with
      storage := Nat.le_trans books.storage (Nat.le_of_lt more)
      counted := by
        refine books.counted_of_grown moved (fun c other => ?_) fun count => ?_
        · cases c with
          | reference b =>
            have different : b ≠ a := fun same => other (same ▸ rfl)
            funext n
            simp only [counts, Store.addInstance, Table.get?_insert s.instances fresh, different,
              if_false]
          | _ => rfl
        · have unused := books.balanced a (Nat.le_refl a)
          simp only [counts, fresh, unused] at count
          simp only [counts, Store.addInstance, Table.get?_insert s.instances fresh, if_true, unused]
          omega
      total := books.total_of_grown moved rfl rfl rfl
      instances := fun b j found => by
        rcases Table.get?_of_insert fresh found with ⟨rfl, rfl⟩ | old
        · exact ⟨Nat.one_pos, more⟩
        · have known := books.instances b j old
          exact ⟨known.1, Nat.lt_trans known.2 more⟩
      named := fun c => by
        have weight := Table.weight_insert (fun i => i.claims.count (.closure c)) s.instances fresh
          { number := number, floating := floating }
        refine Nat.le_trans ?_ (books.named c)
        simp only [namings, Store.addInstance, Instance.claims, List.map_nil, List.count_nil]
          at weight ⊢
        omega
      balanced := fun b free => books.balanced b (Nat.le_trans (Nat.le_of_lt more) free)
      made := by
        have size := Table.size_insert s.instances fresh { number := number, floating := floating }
        have made := books.made
        simp only [Store.live, Store.addInstance] at size made ⊢
        omega }

/-- A new block is owed. -/
theorem Accounted.add_block (books : s.Accounted next owed) (a : Address) :
    Accounted { s with blocks := a :: s.blocks } next (.block a :: owed) :=
  { books with
    counted := by
      refine books.counted_of_grown (fun p => rfl) (fun c other => ?_) fun count => ?_
      · cases c with
        | block b =>
          have different : a ≠ b := fun same => other (same ▸ rfl)
          funext n
          simp only [counts, List.count_cons_of_ne different]
        | _ => rfl
      · simp only [counts, List.count_cons_self] at count ⊢
        omega
    total := books.total_of_grown (fun p => rfl) rfl rfl rfl }

/-- The balance of the direct calls takes an owed reference. -/
theorem Accounted.take_balance {a : Address} (books : s.Accounted next (.reference a :: owed))
    (reserved : a < next) :
    Accounted { s with instanceBalance := s.instanceBalance.take a } next owed :=
  { books with
    counted := by
      refine books.counted_of_paid (fun p => rfl) (fun c other => ?_) fun n count => ?_
      · cases c with
        | reference b =>
          have different : b ≠ a := fun same => other (same ▸ rfl)
          funext n
          simp only [counts, Tally.get_take, different, if_false, Int.add_zero]
        | _ => rfl
      · simp only [counts, Tally.get_take, if_true] at count ⊢
        split at count <;> omega
    total := books.total_of_paid (fun p => rfl) rfl rfl rfl
    balanced := fun b free => by
      have different : b ≠ a := fun same => absurd reserved (Nat.not_lt.mpr (same ▸ free))
      simp only [Tally.get_take, different, if_false, Int.add_zero]
      exact books.balanced b free }

/-- The balance of the direct calls owes a reference. -/
theorem Accounted.give_balance {a : Address} (books : s.Accounted next owed) (reserved : a < next) :
    Accounted { s with instanceBalance := s.instanceBalance.giveBack a } next
      (.reference a :: owed) :=
  { books with
    counted := by
      refine books.counted_of_grown (fun p => rfl) (fun c other => ?_) fun count => ?_
      · cases c with
        | reference b =>
          have different : b ≠ a := fun same => other (same ▸ rfl)
          funext n
          simp only [counts, Tally.get_giveBack, different, if_false, Int.sub_zero]
        | _ => rfl
      · simp only [counts, Tally.get_giveBack, if_true] at count ⊢
        split at count <;> omega
    total := books.total_of_grown (fun p => rfl) rfl rfl rfl
    balanced := fun b free => by
      have different : b ≠ a := fun same => absurd reserved (Nat.not_lt.mpr (same ▸ free))
      simp only [Tally.get_giveBack, different, if_false, Int.sub_zero]
      exact books.balanced b free }

/-- The balance of the direct queries takes a reference to an entry. -/
theorem Accounted.take_entry (books : s.Accounted next owed) (t : Token) :
    Accounted { s with ledger := s.ledger.take t, entryBalance := s.entryBalance.take t } next
      owed :=
  { books with
    counted := fun c => by
      have count := books.counted c
      cases c with
      | entry u =>
        simp only [counts, Tally.get_take] at count ⊢
        change s.ledger.get u + _ = s.entryBalance.get u + _
          + ((s.holders (· == .entry u) + owed.count (.entry u) : Nat) : Int)
        omega
      | _ => exact count
    total := by
      have total := books.total
      simp only [Tally.total_take, holders] at total ⊢
      omega }

/-- The balance of the direct queries gives a reference to an entry back. -/
theorem Accounted.give_entry (books : s.Accounted next owed) (t : Token) :
    Accounted { s with ledger := s.ledger.giveBack t, entryBalance := s.entryBalance.giveBack t }
      next owed :=
  { books with
    counted := fun c => by
      have count := books.counted c
      cases c with
      | entry u =>
        simp only [counts, Tally.get_giveBack] at count ⊢
        change s.ledger.get u - _ = s.entryBalance.get u - _
          + ((s.holders (· == .entry u) + owed.count (.entry u) : Nat) : Int)
        omega
      | _ => exact count
    total := by
      have total := books.total
      simp only [Tally.total_giveBack, holders] at total ⊢
      omega }

/-- A ledger with the same counts and the same total serves as well. -/
theorem Accounted.ledger_congr {ledger : Tally} (books : s.Accounted next owed)
    (same : ∀ t, ledger.get t = s.ledger.get t) (sum : ledger.total = s.ledger.total) :
    Accounted { s with ledger := ledger } next owed :=
  { books with
    counted := fun c => by
      have count := books.counted c
      cases c with
      | entry t =>
        simp only [counts] at count ⊢
        exact (same t).trans count
      | _ => exact count
    total := sum.trans books.total }

end Store

end ObjectBridge
