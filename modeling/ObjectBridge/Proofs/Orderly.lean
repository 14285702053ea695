import ObjectBridge.Proofs.Claiming

/-!
# Orderly worlds

A world is orderly when its books are in order, nothing is owed, and no temporary is a reference to
an instance.  Every answer of the machine to a request keeps a world orderly, as long as the request
names no handle and no connection record that was never made; only the request that makes an
instance leaves a reference among the temporaries.
-/

namespace ObjectBridge

/-- The values of a list of named values are those of one name and the others. -/
theorem countP_forget (name : String) (p : Claim → Bool) {values : List (String × Value)}
    (distinct : (values.map Prod.fst).Nodup) :
    (valueClaims (forget name values)).countP p + (claimsOf name values).countP p
      = (valueClaims values).countP p := by
  induction values with
  | nil => rfl
  | cons row rest ih =>
    obtain ⟨n, v⟩ := row
    simp only [List.map_cons, List.nodup_cons] at distinct
    have others := ih distinct.2
    by_cases same : n = name
    · subst same
      have missing : rest.lookup n = none :=
        List.lookup_eq_none_iff.mpr fun other member => by
          simpa using fun equal : n = other.1 => distinct.1 (equal ▸ List.mem_map_of_mem member)
      simp only [claimsOf, missing, List.countP_nil, Nat.add_zero] at others
      simp only [claimsOf, List.lookup_cons_self, valueClaims, forget, List.flatMap_cons,
        List.countP_append] at others ⊢
      simp only [ne_eq, not_true_eq_false, decide_false, Bool.false_eq_true, not_false_eq_true,
        List.filter_cons_of_neg, others]
      exact Nat.add_comm _ _
    · have skipped : claimsOf name ((n, v) :: rest) = claimsOf name rest := by
        have different : (name == n) = false := beq_false_of_ne (Ne.symm same)
        simp only [claimsOf, List.lookup_cons, different]
      have kept : forget name ((n, v) :: rest) = (n, v) :: forget name rest := by
        simp [forget, same]
      rw [skipped, kept]
      simp only [valueClaims, List.flatMap_cons, List.countP_append] at others ⊢
      omega

theorem nodup_forget {α : Type} (name : String) {values : List (String × α)}
    (distinct : (values.map Prod.fst).Nodup) : ((forget name values).map Prod.fst).Nodup :=
  (List.filter_sublist.map Prod.fst).nodup distinct

/-- A value that is set takes the place of the one that the name had. -/
theorem countP_assign (name : String) (v : Value) (p : Claim → Bool)
    (values : List (String × Value)) :
    (valueClaims (assign name v values)).countP p + (claimsOf name values).countP p
      = (valueClaims values).countP p + v.claims.countP p := by
  induction values with
  | nil => simp [assign, valueClaims, claimsOf]
  | cons row rest ih =>
    obtain ⟨n, old⟩ := row
    by_cases same : n = name
    · subst same
      simp only [assign, if_true, claimsOf, List.lookup_cons_self, valueClaims, List.flatMap_cons,
        List.countP_append]
      omega
    · have different : (name == n) = false := beq_false_of_ne (Ne.symm same)
      have skipped : claimsOf name ((n, old) :: rest) = claimsOf name rest := by
        simp only [claimsOf, List.lookup_cons, different]
      rw [skipped]
      simp only [assign, same, if_false, valueClaims, List.flatMap_cons, List.countP_append] at ih ⊢
      omega

theorem mem_names_assign {α : Type} {name n : String} {x : α} {values : List (String × α)}
    (member : n ∈ (assign name x values).map Prod.fst) :
    n = name ∨ n ∈ values.map Prod.fst := by
  induction values with
  | nil => simpa [assign] using member
  | cons row rest ih =>
    obtain ⟨m, old⟩ := row
    by_cases same : m = name
    · simp only [assign, same, if_true, List.map_cons, List.mem_cons] at member ⊢
      exact member.imp_right .inr
    · simp only [assign, same, if_false, List.map_cons, List.mem_cons] at member ⊢
      rcases member with first | later
      · exact .inr (.inl first)
      · exact (ih later).imp_right .inr

theorem nodup_assign {α : Type} (name : String) (x : α) {values : List (String × α)}
    (distinct : (values.map Prod.fst).Nodup) : ((assign name x values).map Prod.fst).Nodup := by
  induction values with
  | nil => simp [assign]
  | cons row rest ih =>
    obtain ⟨m, old⟩ := row
    by_cases same : m = name
    · simpa only [assign, same, if_true, List.map_cons] using same ▸ distinct
    · simp only [List.map_cons, List.nodup_cons] at distinct
      simp only [assign, same, if_false, List.map_cons, List.nodup_cons]
      refine ⟨fun member => ?_, ih distinct.2⟩
      rcases mem_names_assign member with equal | known
      · exact same equal
      · exact distinct.1 known

namespace Tally

theorem get_foldl_take (path : List Token) (ledger : Tally) (t : Token) :
    (path.foldl take ledger).get t = ledger.get t + path.count t := by
  induction path generalizing ledger with
  | nil => simp
  | cons u rest ih =>
    rw [List.foldl_cons, ih, get_take, List.count_cons]
    simp only [beq_iff_eq, eq_comm (a := u)]
    split <;> omega

theorem get_foldl_giveBack (path : List Token) (ledger : Tally) (t : Token) :
    (path.foldl giveBack ledger).get t = ledger.get t - path.count t := by
  induction path generalizing ledger with
  | nil => simp
  | cons u rest ih =>
    rw [List.foldl_cons, ih, get_giveBack, List.count_cons]
    simp only [beq_iff_eq, eq_comm (a := u)]
    split <;> omega

theorem total_foldl_take (path : List Token) (ledger : Tally) :
    (path.foldl take ledger).total = ledger.total + path.length := by
  induction path generalizing ledger with
  | nil => simp
  | cons u rest ih =>
    rw [List.foldl_cons, ih, total_take, List.length_cons]
    omega

theorem total_foldl_giveBack (path : List Token) (ledger : Tally) :
    (path.foldl giveBack ledger).total = ledger.total - path.length := by
  induction path generalizing ledger with
  | nil => simp
  | cons u rest ih =>
    rw [List.foldl_cons, ih, total_giveBack, List.length_cons]
    omega

end Tally

/-- The numbers that the next handle and the next connection record get. -/
def World.horizon (w : World) : Horizon := w.store.horizon

/-- The books of a world are in order, and no temporary is a reference to an instance. -/
structure World.Orderly (w : World) : Prop where
  /-- The books are in order, and nothing is owed. -/
  books : w.store.Accounted w.memory.next []
  /-- No temporary is a reference to an instance. -/
  settled : ∀ a, .reference a ∉ w.store.held

/-- A world that is orderly, and where everything is known that was known before. -/
structure World.Onward (w w' : World) : Prop where
  /-- The later world is orderly. -/
  orderly : w'.Orderly
  /-- Nothing is forgotten. -/
  later : w.horizon ≤ w'.horizon

namespace World

variable {w w' : World}

theorem Orderly.onward (orderly : w.Orderly) : w.Onward w := ⟨orderly, le_refl _⟩

theorem Onward.trans {w₁ w₂ w₃ : World} (first : w₁.Onward w₂) (second : w₂.Onward w₃) :
    w₁.Onward w₃ :=
  ⟨second.orderly, le_trans first.later second.later⟩

/-- Only the store and the reserved storage matter. -/
theorem Orderly.congr (orderly : w.Orderly) (store : w'.store = w.store)
    (next : w.memory.next ≤ w'.memory.next) : w.Onward w' where
  orderly := ⟨store ▸ orderly.books.reserve next, store ▸ orderly.settled⟩
  later := by rw [horizon, horizon, store]

/-- Giving owed claims back makes a world orderly. -/
theorem onward_release {owed : List Claim} (later : w.horizon ≤ w'.horizon)
    (books : w'.store.Accounted w'.memory.next owed)
    (settled : ∀ a, .reference a ∉ w'.store.held) : w.Onward (w'.release owed).2 where
  orderly := ⟨books.release, by simpa [release] using settled⟩
  later := le_of_le_of_eq later (Store.release_horizon owed w'.store).symm

end World

namespace Store

theorem part_perm (claims kept : List Claim) :
    ((part claims kept).1 ++ (part claims kept).2).Perm claims := by
  induction claims generalizing kept with
  | nil => exact .nil
  | cons c rest ih =>
    by_cases wanted : kept.contains c
    · simp only [part, wanted, if_true]
      exact (ih (kept.erase c)).cons c
    · simp only [part, wanted]
      exact List.perm_middle.trans ((ih kept).cons c)

/-- What stays is among what is kept. -/
theorem mem_kept_of_mem_part {claims kept : List Claim} {c : Claim}
    (member : c ∈ (part claims kept).1) : c ∈ kept := by
  induction claims generalizing kept with
  | nil => simp [part] at member
  | cons d rest ih =>
    by_cases wanted : kept.contains d
    · simp only [part, wanted, if_true, List.mem_cons] at member
      rcases member with first | later
      · exact first ▸ List.contains_iff_mem.mp wanted
      · exact List.mem_of_mem_erase (ih later)
    · simp only [part, wanted] at member
      exact ih member

theorem mem_of_mem_part {claims kept : List Claim} {c : Claim}
    (member : c ∈ (part claims kept).1) : c ∈ claims :=
  (part_perm claims kept).mem_iff.mp (List.mem_append_left _ member)

end Store

namespace World

variable {w : World}

/-- The temporaries that are about to be given back are owed. -/
theorem accounted_settling (books : w.store.Accounted w.memory.next []) (mark : Nat)
    (kept : List Claim) :
    { w.store with
      held := (Store.part (w.store.held.take (w.store.held.length - mark)) kept).1
        ++ w.store.held.drop (w.store.held.length - mark) }.Accounted w.memory.next
      (Store.part (w.store.held.take (w.store.held.length - mark)) kept).2 := by
  have order := Store.part_perm (w.store.held.take (w.store.held.length - mark)) kept
  refine books.moved (fun p => ?_) books.bindings books.globals
  have pieces := order.countP_eq p
  have whole : w.store.held.countP p
      = (w.store.held.take (w.store.held.length - mark)).countP p
        + (w.store.held.drop (w.store.held.length - mark)).countP p := by
    rw [← List.countP_append, List.take_append_drop]
  simp only [List.countP_append, List.countP_nil] at pieces ⊢
  omega

/-- Giving temporaries back keeps a world orderly, as long as no reference stays. -/
theorem onward_settle (books : w.store.Accounted w.memory.next []) (mark : Nat)
    (kept : List Claim)
    (settled : ∀ a, .reference a ∉ (Store.part
        (w.store.held.take (w.store.held.length - mark)) kept).1
      ++ w.store.held.drop (w.store.held.length - mark)) :
    w.Onward (w.settle mark kept).2 :=
  onward_release le_rfl (accounted_settling books mark kept) settled

theorem Orderly.settle (orderly : w.Orderly) (mark : Nat) (kept : List Claim) :
    w.Onward (w.settle mark kept).2 := by
  refine onward_settle orderly.books mark kept fun a member => orderly.settled a ?_
  rcases List.mem_append.mp member with newer | older
  · exact List.mem_of_mem_take (Store.mem_of_mem_part newer)
  · exact List.mem_of_mem_drop older

/-- A temporary that is taken out is owed. -/
theorem Orderly.unheld (orderly : w.Orderly) {c : Claim} (held : c ∈ w.store.held) :
    (w.store.dropHeld c).Accounted w.memory.next [c] := by
  refine orderly.books.moved (fun p => ?_) orderly.books.bindings orderly.books.globals
  have order := (List.perm_cons_erase held).countP_eq p
  simp only [List.countP_cons, List.countP_nil] at order ⊢
  omega

theorem Orderly.letGo (orderly : w.Orderly) {c : Claim} (held : c ∈ w.store.held) :
    w.Onward ((w.withStore (w.store.dropHeld c)).release [c]).2 :=
  onward_release le_rfl (orderly.unheld held)
    fun a member => orderly.settled a (List.mem_of_mem_erase member)

theorem Orderly.hold (orderly : w.Orderly) {c : Claim} (known : c.Known w.horizon) :
    w.Onward (w.withStore (w.store.hold c)) where
  orderly :=
    { books := orderly.books.hold known
      settled := fun a member => by
        simp only [withStore, Store.hold, Store.claim_held, List.mem_cons] at member
        rcases member with first | later
        · rw [← first] at known
          exact known
        · exact orderly.settled a later }
  later := le_of_eq (Store.claim_horizon c w.store).symm

/-- What making a handle did: the books are in order, the handle is on top of the temporaries if it
was made, and then it is known. -/
structure Opened (w : World) (result : Outcome HandleId × World) : Prop where
  /-- The books are in order. -/
  books : result.2.store.Accounted result.2.memory.next []
  /-- Nothing is forgotten. -/
  later : w.horizon ≤ result.2.horizon
  /-- Only the handle joins the temporaries. -/
  held : result.2.store.held = w.store.held
    ∨ ∃ h, result.2.store.held = .handle h :: w.store.held
  /-- The handle is known. -/
  known : ∀ h, result.1 = .done h → h < result.2.horizon.1

theorem Opened.onward {result : Outcome HandleId × World} (opened : w.Opened result)
    (settled : ∀ a, .reference a ∉ w.store.held) : w.Onward result.2 where
  orderly :=
    { books := opened.books
      settled := fun a member => by
        rcases opened.held with same | ⟨h, pushed⟩
        · exact settled a (same ▸ member)
        · rw [pushed] at member
          rcases List.mem_cons.mp member with first | old
          · cases first
          · exact settled a old }
  later := opened.later

/-- A new handle whose claims are counted is made in order. -/
theorem opened_addHandle {r : HandleRecord}
    (books : (w.store.claimAll r.claims).Accounted w.memory.next r.claims) (single : r.shares = 1)
    (older : ∀ k, r.keeper = some k → k < w.store.nextHandle) :
    w.Opened (.done (w.store.addHandle r).1, w.withStore (w.store.addHandle r).2) := by
  have grown : (w.withStore (w.store.addHandle r).2).horizon
      = (w.store.nextHandle + 1, w.store.nextClosure) := Store.addHandle_horizon r w.store
  refine ⟨?_, ?_, ?_, fun h equal => ?_⟩
  · exact Store.Accounted.addHandle (by rwa [List.append_nil]) single older
  · rw [grown]
    exact ⟨Nat.le_succ _, Nat.le_refl _⟩
  · exact .inr ⟨_, Store.addHandle_held r w.store⟩
  · cases equal
    rw [grown]
    exact Nat.lt_succ_self _

/-- The claims of a handle that owns nothing of its instance can be made at any time. -/
theorem known_claims {z : Horizon} (info : Option Token) {attachment : Option Attachment}
    {keeper : Option HandleId} (unowned : ∀ a o, attachment = some ⟨a, o⟩ → o = .borrowed)
    (known : ∀ k, keeper = some k → k < z.1) :
    ∀ c ∈ HandleRecord.claims
      { info := info, attachment := attachment, keeper := keeper }, c.Known z := by
  intro c member
  simp only [HandleRecord.claims, List.mem_append] at member
  rcases member with (owned | typed) | kept
  · cases attachment with
    | none => simp at owned
    | some instance_ =>
      obtain ⟨a, o⟩ := instance_
      cases unowned a o rfl
      simp at owned
  · cases info with
    | none => simp [entryClaims] at typed
    | some t =>
      rw [List.mem_singleton.mp typed]
      trivial
  · cases keeper with
    | none => simp at kept
    | some k =>
      rw [List.mem_singleton.mp kept]
      exact known k rfl

/-- A handle is made in order, unless its instance is gone. -/
theorem opened_openHandle (books : w.store.Accounted w.memory.next []) (info : Option Token)
    {attachment : Option Attachment} {keeper : Option HandleId}
    (known : ∀ k, keeper = some k → k < w.horizon.1)
    (unblocked : ∀ a, attachment ≠ some ⟨a, .block⟩) :
    w.Opened (w.openHandle info attachment keeper) := by
  have free (unowned : ∀ a o, attachment = some ⟨a, o⟩ → o = .borrowed) :=
    opened_addHandle (w := w)
      (r := { info := info, attachment := attachment, keeper := keeper })
      (by
        have claimed := books.claimAll (known_claims info unowned known)
        rwa [List.append_nil] at claimed)
      rfl known
  match attachment with
  | none => exact free (by simp)
  | some ⟨a, .borrowed⟩ => exact free (by simp)
  | some ⟨a, .block⟩ => exact absurd rfl (unblocked a)
  | some ⟨a, .retained⟩ =>
    simp only [World.openHandle]
    split
    · next present =>
      obtain ⟨i, live⟩ := Option.isSome_iff_exists.mp present
      have referenced := books.claim_reference live
      have shared : w.store.claim (.reference a)
          = w.store.setInstance a { i with references := i.references + 1 } := by
        simp only [Store.claim, live, Store.setInstance]
      rw [← shared] at referenced
      have unreferenced : ∀ c ∈ HandleRecord.claims
          { info := info, attachment := none, keeper := keeper },
          c.Known (w.store.claim (.reference a)).horizon := by
        rw [Store.claim_horizon]
        exact known_claims info (by simp) known
      have claimed := referenced.claimAll unreferenced
      exact opened_addHandle (w := w)
        (r := { info := info, attachment := some ⟨a, .retained⟩, keeper := keeper })
        (claimed.reorder List.perm_append_comm) rfl known
    · exact ⟨books, le_rfl, .inl rfl, fun h equal => by cases equal⟩

/-- Reserved storage lies below all that is reserved next. -/
theorem place_lt (w : World) (cells : List Cell) (size : Nat) :
    (w.place cells size).1 = w.memory.next
      ∧ w.memory.next < (w.place cells size).2.memory.next := by
  refine ⟨rfl, ?_⟩
  simp only [World.place, Memory.place, Memory.reserve, Memory.write]
  exact Nat.lt_of_lt_of_le (Nat.lt_add_of_pos_right (by decide)) (Nat.le_add_right _ _)

/-- Reserving storage keeps a world orderly. -/
theorem Orderly.place (orderly : w.Orderly) (cells : List Cell) (size : Nat) :
    w.Onward (w.place cells size).2 :=
  orderly.congr rfl (Nat.le_of_lt (w.place_lt cells size).2)

/-- A handle on a new block is made in order. -/
theorem opened_openBlock (books : w.store.Accounted w.memory.next []) (info : Token) (size : Nat) :
    w.Opened (w.openBlock info size) := by
  have placed := books.reserve (Nat.le_of_lt (w.place_lt [] size).2)
  have claimed := (placed.add_block (w.place [] size).1).claim_entry info
  have added := opened_addHandle
    (w := (w.place [] size).2.withStore
      { w.store with blocks := (w.place [] size).1 :: w.store.blocks })
    (r := { info := some info, attachment := some ⟨(w.place [] size).1, .block⟩ })
    (claimed.reorder (.swap _ _ _)) rfl (by simp)
  exact ⟨added.books, added.later, added.held, added.known⟩

/-- A direct call that makes an instance keeps a world orderly. -/
theorem Orderly.createDirect (orderly : w.Orderly) (number : TypeNumber) :
    w.Onward (w.createDirect number).2 := by
  have room := w.place_lt [] instanceStorage
  have made := orderly.books.addInstance room.2 number false
  exact ⟨⟨made.take_balance room.2, orderly.settled⟩, le_rfl⟩

/-- A change of an instance that keeps its references and connections keeps a world orderly. -/
theorem Orderly.setInstance (orderly : w.Orderly) {a : Address} {i i' : Instance}
    (live : w.store.instances.get? a = some i) (references : i'.references = i.references)
    (connections : i'.connections = i.connections) : w.Onward (w.setInstance a i') :=
  ⟨⟨orderly.books.setInstance live references connections, orderly.settled⟩, le_rfl⟩

/-- What is done with a live instance keeps a world orderly if it does so where the instance is
live. -/
theorem Orderly.withInstance {α : Type} (orderly : w.Orderly) {a : Address}
    {f : Instance → Outcome α × World}
    (body : ∀ i, w.store.instances.get? a = some i → w.Onward (f i).2) :
    w.Onward (w.withInstance a f).2 := by
  simp only [World.withInstance]
  split
  · next i live => exact body i live
  · exact orderly.onward

/-- A direct call that takes a reference keeps a world orderly. -/
theorem Orderly.takeDirect (orderly : w.Orderly) (a : Address) : w.Onward (w.takeDirect a).2 :=
  orderly.withInstance fun i live =>
    ⟨⟨(orderly.books.claim_reference live).take_balance (orderly.books.instances a i live).2,
      orderly.settled⟩, le_rfl⟩

/-- A direct call that gives a reference back keeps a world orderly. -/
theorem Orderly.giveBackDirect (orderly : w.Orderly) (a : Address) :
    w.Onward (w.giveBackDirect a).2 :=
  orderly.withInstance fun i live =>
    onward_release le_rfl (orderly.books.give_balance (orderly.books.instances a i live).2)
      orderly.settled

/-- A direct call that ends the floating of an instance, or takes a reference to it, keeps a world
orderly. -/
theorem Orderly.sinkDirect (orderly : w.Orderly) (a : Address) : w.Onward (w.sinkDirect a).2 :=
  orderly.withInstance fun i live => by
    split
    · exact orderly.setInstance live rfl rfl
    · exact orderly.takeDirect a

/-- A new connection keeps a world orderly. -/
theorem Orderly.attach (orderly : w.Orderly) {a : Address} {i : Instance} {reaction : Reaction}
    (live : w.store.instances.get? a = some i) (known : ∀ c ∈ reaction.claims, c.Known w.horizon)
    (signal : String) :
    w.Onward (w.withStore (w.store.addConnection a i signal reaction).2) where
  orderly :=
    { books := orderly.books.addConnection live known signal
      settled := by simpa [withStore, Store.addConnection] using orderly.settled }
  later := by
    simp only [horizon, withStore, Store.addConnection, Store.horizon, Store.claimAll_nextHandle]
    exact ⟨Nat.le_refl _, Nat.le_succ _⟩

/-- Binding a variable keeps a world orderly. -/
theorem Orderly.bind (orderly : w.Orderly) (name : String) {v : Value} (known : v.Known w.horizon) :
    w.Onward (w.bind name v).2 := by
  have claimed := orderly.books.claimAll known
  refine onward_release ?_ ?_ ?_
  · exact le_of_eq (Store.claimAll_horizon v.claims w.store).symm
  · refine claimed.moved (fun p => ?_) ?_ claimed.globals
    · have split := countP_forget name p orderly.books.bindings
      simp only [Store.claimAll_held, Store.claimAll_bindings, Store.claimAll_globals, valueClaims,
        List.flatMap_append, List.flatMap_cons, List.flatMap_nil, List.append_nil,
        List.countP_append] at split ⊢
      omega
    · rw [Store.claimAll_bindings, List.map_append, List.nodup_append]
      refine ⟨nodup_forget name orderly.books.bindings, by simp, fun n member m single => ?_⟩
      obtain ⟨row, kept, rfl⟩ := List.mem_map.mp member
      rw [List.map_singleton, List.mem_singleton] at single
      exact single ▸ of_decide_eq_true (List.mem_filter.mp kept).2
  · simpa [withStore] using orderly.settled

/-- What a variable that is removed was bound to is owed. -/
theorem Orderly.unbound (orderly : w.Orderly) (name : String) :
    { w.store with bindings := forget name w.store.bindings }.Accounted w.memory.next
      (claimsOf name w.store.bindings) := by
  refine orderly.books.moved (fun p => ?_) (nodup_forget name orderly.books.bindings)
    orderly.books.globals
  have split := countP_forget name p orderly.books.bindings
  simp only [List.countP_nil]
  omega

/-- Removing a variable keeps a world orderly. -/
theorem Orderly.unbind (orderly : w.Orderly) (name : String) : w.Onward (w.unbind name).2 :=
  onward_release le_rfl (orderly.unbound name) orderly.settled

/-- Storing a global keeps a world orderly. -/
theorem Orderly.storeGlobal (orderly : w.Orderly) (name : String) {v : Value}
    (known : v.Known w.horizon) : w.Onward (w.storeGlobal name v).2 := by
  have claimed := orderly.books.claimAll known
  refine onward_release ?_ ?_ ?_
  · exact le_of_eq (Store.claimAll_horizon v.claims w.store).symm
  · refine claimed.moved (fun p => ?_) claimed.bindings ?_
    · have split := countP_assign name v p w.store.globals
      simp only [Store.claimAll_held, Store.claimAll_bindings, Store.claimAll_globals,
        List.countP_append, List.countP_nil] at split ⊢
      omega
    · rw [Store.claimAll_globals]
      exact nodup_assign name v orderly.books.globals
  · simpa [withStore] using orderly.settled

/-- What a global that is removed was set to is owed. -/
theorem Orderly.unset (orderly : w.Orderly) (name : String) :
    { w.store with globals := forget name w.store.globals }.Accounted w.memory.next
      (claimsOf name w.store.globals) := by
  refine orderly.books.moved (fun p => ?_) orderly.books.bindings
    (nodup_forget name orderly.books.globals)
  have split := countP_forget name p orderly.books.globals
  simp only [List.countP_nil]
  omega

/-- Removing a global keeps a world orderly. -/
theorem Orderly.dropGlobal (orderly : w.Orderly) (name : String) :
    w.Onward (w.dropGlobal name).2 :=
  onward_release le_rfl (orderly.unset name) orderly.settled

/-- Tracing a name gives back every reference it takes. -/
theorem traceName_ledger (w : World) (t : Token) :
    ∃ ledger : Tally, w.traceName t = w.withStore { w.store with ledger := ledger }
      ∧ (∀ u, ledger.get u = w.store.ledger.get u) ∧ ledger.total = w.store.ledger.total := by
  refine ⟨_, rfl, fun u => ?_, ?_⟩
  · rw [Tally.get_foldl_giveBack, Tally.get_foldl_take, (List.reverse_perm _).count_eq]
    omega
  · rw [Tally.total_foldl_giveBack, Tally.total_foldl_take, List.length_reverse]
    omega

/-- Tracing keeps a world orderly. -/
theorem Orderly.trace (orderly : w.Orderly) (entries : List Token) :
    w.Onward (entries.foldl traceName w) := by
  induction entries generalizing w with
  | nil => exact orderly.onward
  | cons t rest ih =>
    obtain ⟨ledger, traced, same, sum⟩ := w.traceName_ledger t
    have first : w.Onward (w.traceName t) := by
      rw [traced]
      exact ⟨⟨orderly.books.ledger_congr same sum, orderly.settled⟩, le_rfl⟩
    exact first.trans (ih first.orderly)

end World
end ObjectBridge
