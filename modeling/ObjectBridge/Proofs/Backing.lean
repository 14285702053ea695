import ObjectBridge.Proofs.Reordering
import ObjectBridge.Proofs.Standing

/-!
# Handles that are kept

A live handle has as many shares as there are holders of it, and what takes or gives back shares
keeps it so.  So a handle does not end before the handles that it keeps, whatever runs.
-/

namespace ObjectBridge

namespace Table

variable {α : Type}

theorem weight_insert_le (f : α → Nat) (t : Table α) (key : Nat) (x : α) :
    (t.insert key x).weight f ≤ t.weight f + f x := by
  cases found : t.get? key with
  | none => exact Nat.le_of_eq (weight_insert f t found x)
  | some y =>
    have known : key ∈ t.rows.map Prod.fst := List.mem_map_of_mem (mem_of_get? found)
    have changed := weight_set f t key y x found
    rw [insert, dif_pos known]
    omega

/-- What ends when an entry is counted down takes its weight along. -/
theorem weight_countDown_of_eq (count : α → Nat) (fewer : α → α) (f : α → Nat) (t : Table α)
    (key : Nat) (same : ∀ x, f (fewer x) = f x) :
    (t.countDown count fewer key).2.weight f
      + ((t.countDown count fewer key).1.map f).getD 0 = t.weight f := by
  unfold countDown
  split
  · rfl
  · next x found =>
    split
    · exact weight_erase f t key x found
    · have changed := weight_set f t key x (fewer x) found
      rw [same] at changed
      exact Nat.add_right_cancel changed

end Table

/-- A name that is forgotten gives up what it held. -/
theorem countP_forget_le (name : String) (p : Claim → Bool) (values : List (String × Value)) :
    (valueClaims (forget name values)).countP p + (claimsOf name values).countP p
      ≤ (valueClaims values).countP p := by
  induction values with
  | nil => exact Nat.le_refl 0
  | cons row rest ih =>
    obtain ⟨n, v⟩ := row
    have split : (valueClaims ((n, v) :: rest)).countP p
        = v.claims.countP p + (valueClaims rest).countP p := List.countP_append
    by_cases same : n = name
    · subst same
      have dropped : forget n ((n, v) :: rest) = forget n rest :=
        List.filter_cons_of_neg (by simp)
      rw [dropped, split, claimsOf, List.lookup_cons_self]
      dsimp only
      omega
    · have kept : forget name ((n, v) :: rest) = (n, v) :: forget name rest :=
        List.filter_cons_of_pos (by simp [same])
      have skipped : claimsOf name ((n, v) :: rest) = claimsOf name rest := by
        have different : (name == n) = false := beq_false_of_ne (Ne.symm same)
        simp only [claimsOf, List.lookup_cons, different]
      have front : (valueClaims ((n, v) :: forget name rest)).countP p
          = v.claims.countP p + (valueClaims (forget name rest)).countP p := List.countP_append
      rw [kept, skipped, split, front]
      omega

namespace Store

variable {s s' : Store} {z h k : HandleId} {c : Claim} {claims owed owed' : List Claim}
  {next : Address} {r : HandleRecord}

/-! ### Who holds claims -/

/-- Taking a share does not say who holds it. -/
theorem holders_claim (c : Claim) (s : Store) (p : Claim → Bool) :
    (s.claim c).holders p = s.holders p := by
  cases c with
  | entry t | block a => rfl
  | handle h =>
    rw [claim]
    split
    · next r live =>
      have weight := Table.weight_set (fun r : HandleRecord => r.claims.countP p) s.handles h r
        { r with shares := r.shares + 1 } live
      simp only [holders, HandleRecord.claims] at weight ⊢
      omega
    · rfl
  | reference a =>
    rw [claim]
    split
    · next i live =>
      have weight := Table.weight_set (fun i : Instance => i.claims.countP p) s.instances a i
        { i with references := i.references + 1 } live
      simp only [holders, Instance.claims] at weight ⊢
      omega
    · rfl
  | closure c =>
    rw [claim]
    split
    · next r live =>
      have weight := Table.weight_set (fun c : Closure => c.reaction.claims.countP p) s.closures c r
        { r with shares := r.shares + 1 } live
      simp only [holders] at weight ⊢
      omega
    · rfl

theorem holders_claimAll (claims : List Claim) (s : Store) (p : Claim → Bool) :
    (s.claimAll claims).holders p = s.holders p := by
  induction claims generalizing s with
  | nil => rfl
  | cons c rest ih => exact (ih (s.claim c)).trans (holders_claim c s p)

/-- What ends with a share no longer holds its claims: they are owed. -/
theorem holders_pay (c : Claim) (s : Store) (p : Claim → Bool) :
    (s.pay c).2.holders p + (s.pay c).1.countP p = s.holders p := by
  have counted {α : Type} (claims : α → List Claim) (ended : Option α) :
      ((ended.map claims).getD []).countP p = (ended.map fun x => (claims x).countP p).getD 0 := by
    cases ended <;> rfl
  cases c with
  | entry t | block a => rfl
  | handle h =>
    have weight := Table.weight_countDown_of_eq HandleRecord.shares HandleRecord.fewer
      (fun r => r.claims.countP p) s.handles h fun _ => rfl
    simp only [pay, holders, counted]
    omega
  | closure c =>
    have weight := Table.weight_countDown_of_eq Closure.shares Closure.fewer
      (fun c => c.reaction.claims.countP p) s.closures c fun _ => rfl
    simp only [pay, holders, counted]
    omega
  | reference a =>
    have weight := Table.weight_countDown_of_eq Instance.references Instance.fewer
      (fun i => i.claims.countP p) s.instances a fun _ => rfl
    simp only [pay, holders, counted]
    omega

/-- Giving claims back makes no holders. -/
theorem holders_release_le (owed : List Claim) (s : Store) (p : Claim → Bool) :
    (s.release owed).2.holders p ≤ s.holders p + owed.countP p := by
  induction owed, s using release_induction with
  | nil s =>
    rw [release]
    exact Nat.le_add_right _ _
  | cons c rest s ih =>
    have paid := holders_pay c s p
    rw [release_cons]
    rw [List.countP_append] at ih
    rw [List.countP_cons]
    omega

/-- Shares of handles are not held by instances. -/
theorem holders_handle (s : Store) (k : HandleId) :
    s.holders (· == .handle k)
      = s.held.countP (· == .handle k) + (valueClaims s.bindings).countP (· == .handle k)
        + (valueClaims s.globals).countP (· == .handle k)
        + s.handles.weight (fun r => r.claims.countP (· == .handle k))
        + s.closures.weight (fun c => c.reaction.claims.countP (· == .handle k)) := by
  have instances : s.instances.weight (fun i => i.claims.countP (· == .handle k)) = 0 := by
    refine Table.weight_eq_zero fun i => List.countP_eq_zero.mpr fun d member => ?_
    obtain ⟨connection, _, rfl⟩ := List.mem_map.mp member
    exact Bool.false_ne_true
  rw [holders, instances, Nat.add_zero]

/-- The keeper of a live handle has a holder. -/
theorem holders_pos_of_keeper (live : s.handles.get? h = some r) (keeper : r.keeper = some k) :
    0 < s.holders (· == .handle k) := by
  have claimed : Claim.handle k ∈ r.claims := by
    rw [HandleRecord.claims, keeper]
    exact List.mem_append_right _ List.mem_cons_self
  have counted : 0 < r.claims.countP (· == .handle k) :=
    List.countP_pos_iff.mpr ⟨_, claimed, beq_self_eq_true _⟩
  have weight := Table.le_weight (fun r : HandleRecord => r.claims.countP (· == .handle k)) live
  rw [holders_handle]
  omega

/-! ### Handles with a share for each holder -/

/-- A live handle with a share for each claim of it that is held or owed. -/
def Backed (s : Store) (owed : List Claim) (k : HandleId) : Prop :=
  ∃ r, s.handles.get? k = some r
    ∧ s.holders (· == .handle k) + owed.count (.handle k) ≤ r.shares

/-- In a store whose books are in order, every live handle is backed. -/
theorem Accounted.backed (books : s.Accounted next owed) (live : s.handles.get? k = some r) :
    s.Backed owed k := by
  have count := books.counted (.handle k)
  simp only [counts, live] at count
  exact ⟨r, live, Nat.le_of_eq count.symm⟩

theorem Backed.live (backed : s.Backed owed k) : s.handles.contains k = true := by
  obtain ⟨r, live, _⟩ := backed
  rw [Table.contains, live]
  rfl

/-- Claims that change hands leave a handle backed. -/
theorem Backed.moved (backed : s.Backed owed k)
    (record : s'.handles.get? k = s.handles.get? k)
    (units : s'.holders (· == .handle k) + owed'.count (.handle k)
      ≤ s.holders (· == .handle k) + owed.count (.handle k)) : s'.Backed owed' k := by
  obtain ⟨r, live, enough⟩ := backed
  exact ⟨r, record.trans live, Nat.le_trans units enough⟩

theorem Backed.claim (backed : s.Backed owed k) (c : Claim) : (s.claim c).Backed (c :: owed) k := by
  obtain ⟨r, live, enough⟩ := backed
  have same := holders_claim c s (· == .handle k)
  by_cases own : c = .handle k
  · subst own
    refine ⟨{ r with shares := r.shares + 1 }, ?_, ?_⟩
    · simp only [Store.claim, live, Table.get?_set, if_true, Option.map_some]
    · rw [same, List.count_cons_self]
      exact Nat.succ_le_succ enough
  · refine ⟨r, ?_, ?_⟩
    · rw [← live]
      cases c with
      | handle h =>
        have other : k ≠ h := fun equal => own (equal ▸ rfl)
        rw [Store.claim]
        split
        · simp only [Table.get?_set, other, if_false]
        · rfl
      | entry t | block a => rfl
      | reference a | closure a =>
        rw [Store.claim]
        split <;> rfl
    · rw [same, List.count_cons_of_ne own]
      exact enough

theorem Backed.claimAll (backed : s.Backed owed k) (claims : List Claim) :
    (s.claimAll claims).Backed (claims ++ owed) k := by
  induction claims generalizing s owed with
  | nil => exact backed
  | cons c rest ih =>
    refine (ih (backed.claim c)).moved rfl ?_
    simp only [List.cons_append, List.count_append, List.count_cons]
    exact Nat.le_of_eq (by simp only [Store.claimAll, List.foldl_cons]; omega)

/-- A share that is given back leaves the handle backed, or it was the last. -/
theorem Backed.pay (backed : s.Backed (c :: owed) k) :
    (s.pay c).2.Backed ((s.pay c).1 ++ owed) k
      ∨ (s.pay c).2.holders (· == .handle k) + ((s.pay c).1 ++ owed).count (.handle k) = 0 := by
  obtain ⟨r, live, enough⟩ := backed
  have paid := holders_pay c s (· == .handle k)
  rw [← List.count] at paid
  rw [List.count_append]
  by_cases own : c = .handle k
  · subst own
    rw [List.count_cons_self] at enough
    by_cases last : r.shares ≤ 1
    · exact .inr (by omega)
    · refine .inl ⟨r.fewer, ?_, ?_⟩
      · simp only [Store.pay, Table.countDown, live, last, if_false, Table.get?_set, if_true,
          Option.map_some]
      · have less : r.fewer.shares = r.shares - 1 := rfl
        rw [List.count_append, less]
        omega
  · rw [List.count_cons_of_ne own] at enough
    refine .inl ⟨r, ?_, by rw [List.count_append]; omega⟩
    rw [← live]
    cases c with
    | handle h => exact Table.get?_countDown s.handles fun equal => own (equal ▸ rfl)
    | _ => rfl

/-- A handle that is backed ends only when nothing holds it any more. -/
theorem Backed.release (backed : s.Backed owed k) :
    (s.release owed).2.Backed [] k ∨ (s.release owed).2.holders (· == .handle k) = 0 := by
  induction owed, s using release_induction with
  | nil s =>
    rw [Store.release]
    exact .inl backed
  | cons c rest s ih =>
    rw [release_cons]
    rcases backed.pay with still | none
    · exact ih still
    · have fewer := holders_release_le ((s.pay c).1 ++ rest) (s.pay c).2 (· == .handle k)
      rw [← List.count, none] at fewer
      exact .inr (Nat.le_zero.mp fewer)

/-- None of the handles with numbers below a given one is kept by a handle. -/
def Unkept (s : Store) (z : HandleId) (k : HandleId) : Prop :=
  ∀ h < z, ∀ r, s.handles.get? h = some r → r.keeper ≠ some k

/-- Handles with numbers below a given one stay backed as long as they keep one of these handles. -/
def Backs (z : HandleId) (s s' : Store) : Prop :=
  ∀ k < z, s.Backed [] k → s'.Backed [] k ∨ s'.Unkept z k

/-- Claims are taken, change hands, and some of them are given back. -/
theorem backs_transfer {t : Store} (claims owed : List Claim)
    (given : s' = (t.release owed).2)
    (record : ∀ k < z, t.handles.get? k = (s.claimAll claims).handles.get? k)
    (units : ∀ k < z, t.holders (· == .handle k) + owed.countP (· == .handle k)
      ≤ s.holders (· == .handle k) + claims.countP (· == .handle k)) : Backs z s s' := by
  intro k below backed
  have claimed := backed.claimAll claims
  have transferred : t.Backed owed k := by
    refine claimed.moved (record k below) ?_
    rw [holders_claimAll, List.append_nil]
    exact units k below
  rw [given]
  refine transferred.release.imp_right fun none h _ r live keeper => ?_
  exact Nat.ne_of_gt (holders_pos_of_keeper live keeper) none

/-- Only what holds shares of handles matters. -/
theorem backs_of_eq (handles : s'.handles = s.handles) (closures : s'.closures = s.closures)
    (held : s'.held = s.held) (bindings : s'.bindings = s.bindings)
    (globals : s'.globals = s.globals) : Backs z s s' := by
  refine backs_transfer [] [] (by rw [Store.release]) (fun k _ => by rw [handles]; rfl)
    fun k _ => ?_
  rw [holders_handle, holders_handle, handles, closures, held, bindings, globals]

end Store

namespace World

variable {w w₁ w₂ w' : World} {calls : Calls}

/-- Handles endure, and none ends before the handles that it keeps. -/
structure Backs (w w' : World) : Prop where
  /-- Handles stand for what they stood for. -/
  endures : w.Endures w'
  /-- A handle stays backed as long as it keeps a handle that there was. -/
  store : w.store.Backs w.store.nextHandle w'.store

theorem Backs.refl (w : World) : w.Backs w := ⟨.refl w, fun _ _ backed => .inl backed⟩

theorem Backs.trans (first : w.Backs w₁) (second : w₁.Backs w₂) : w.Backs w₂ where
  endures := first.endures.trans second.endures
  store k below backed := by
    have later {h : HandleId} (old : h < w.store.nextHandle) : h < w₁.store.nextHandle :=
      Nat.lt_of_lt_of_le old first.endures.number
    rcases first.store k below backed with still | unkept
    · exact (second.store k (later below) still).imp_right fun unkept h old => unkept h (later old)
    · refine .inr fun h old r live => ?_
      obtain ⟨r', before, _, keeper⟩ := second.endures.handles h (later old) r live
      rw [keeper]
      exact unkept h old r' before

/-- A handle that keeps a live handle is live. -/
theorem Backs.keeper (backs : w.Backs w') {h k : HandleId} {r : HandleRecord}
    (keeper : k < w.store.nextHandle) (backed : w.store.Backed [] k)
    (old : h < w.store.nextHandle) (live : w'.store.handles.get? h = some r)
    (kept : r.keeper = some k) : w'.store.handles.contains k = true := by
  rcases backs.store k keeper backed with still | unkept
  · exact still.live
  · exact absurd kept (unkept h old r live)

theorem backs_hold (c : Claim) (w : World) :
    w.store.Backs w.store.nextHandle (w.store.hold c) := by
  refine Store.backs_transfer (t := w.store.hold c) [c] [] (by rw [Store.release])
    (fun k _ => rfl) fun k _ => ?_
  have same := Store.holders_claim c w.store (· == .handle k)
  rw [Store.holders_handle] at same
  rw [Store.holders_handle, ← same]
  simp only [Store.hold, List.countP_cons, List.countP_nil, Store.claim_held]
  omega

theorem backs_settle (w : World) (mark : Nat) (kept : List Claim) :
    w.store.Backs w.store.nextHandle (w.settle mark kept).2.store := by
  refine Store.backs_transfer [] _ rfl (fun k _ => rfl) fun k _ => ?_
  have order := (Store.part_perm (w.store.held.take (w.store.held.length - mark)) kept).countP_eq
    (· == .handle k)
  have whole : w.store.held.countP (· == .handle k)
      = (w.store.held.take (w.store.held.length - mark)).countP (· == .handle k)
        + (w.store.held.drop (w.store.held.length - mark)).countP (· == .handle k) := by
    rw [← List.countP_append, List.take_append_drop]
  rw [Store.holders_handle, Store.holders_handle]
  simp only [withStore, List.countP_append, List.countP_nil] at order ⊢
  omega

theorem backs_letGo {c : Claim} (held : c ∈ w.store.held) :
    w.store.Backs w.store.nextHandle ((w.withStore (w.store.dropHeld c)).release [c]).2.store := by
  refine Store.backs_transfer [] [c] rfl (fun k _ => rfl) fun k _ => ?_
  have order := (List.perm_cons_erase held).countP_eq (· == .handle k)
  rw [Store.holders_handle, Store.holders_handle]
  simp only [withStore, Store.dropHeld, List.countP_cons, List.countP_nil] at order ⊢
  omega

theorem backs_addHandle (r : HandleRecord) (s : Store) :
    s.Backs s.nextHandle (s.addHandle r).2 := by
  refine Store.backs_transfer (t := (s.addHandle r).2) r.claims [] (by rw [Store.release])
    (fun k below => Table.get?_insert_of_ne (Nat.ne_of_lt below)) fun k below => ?_
  have same := Store.holders_claimAll r.claims s (· == .handle k)
  have other : (Claim.handle s.nextHandle == .handle k) = false :=
    beq_false_of_ne fun equal => Nat.ne_of_gt below (Claim.handle.inj equal)
  have weight := Table.weight_insert_le (fun r : HandleRecord => r.claims.countP (· == .handle k))
    (s.claimAll r.claims).handles s.nextHandle r
  rw [Store.holders_handle] at same
  rw [Store.holders_handle, ← same]
  simp only [Store.addHandle, List.countP_cons, List.countP_nil, other] at weight ⊢
  simp only [Bool.false_eq_true, if_false]
  omega

theorem backs_openHandle (w : World) (info : Option Token) (attachment : Option Attachment)
    (keeper : Option HandleId) :
    w.store.Backs w.store.nextHandle (w.openHandle info attachment keeper).2.store := by
  unfold openHandle
  dsimp only
  split
  · split
    · exact backs_addHandle _ w.store
    · exact fun _ _ backed => .inl backed
  · exact backs_addHandle _ w.store

theorem backs_addConnection (a : Address) (i : Instance) (signal : String) (reaction : Reaction)
    (s : Store) : s.Backs s.nextHandle (s.addConnection a i signal reaction).2 := by
  refine Store.backs_transfer (t := (s.addConnection a i signal reaction).2) reaction.claims []
    (by rw [Store.release]) (fun k _ => rfl) fun k _ => ?_
  have same := Store.holders_claimAll reaction.claims s (· == .handle k)
  have weight := Table.weight_insert_le
    (fun c : Closure => c.reaction.claims.countP (· == .handle k))
    (s.claimAll reaction.claims).closures s.nextClosure { reaction := reaction }
  rw [Store.holders_handle] at same
  rw [Store.holders_handle, ← same]
  simp only [Store.addConnection, List.countP_nil] at weight ⊢
  omega

/-- A global takes over the claims of a value, and gives up what it was set to. -/
theorem backs_storeGlobal (name : String) (v : Value) (w : World) :
    w.store.Backs w.store.nextHandle (w.storeGlobal name v).2.store := by
  refine Store.backs_transfer v.claims _ rfl (fun k _ => rfl) fun k _ => ?_
  have same := Store.holders_claimAll v.claims w.store (· == .handle k)
  have units := countP_assign name v (· == .handle k) w.store.globals
  rw [Store.holders_handle] at same
  rw [Store.holders_handle, ← same]
  simp only [withStore, Store.claimAll_globals] at units ⊢
  omega

/-- A variable takes over the claims of a value, and gives up what it was bound to. -/
theorem backs_bind (name : String) (v : Value) (w : World) :
    w.store.Backs w.store.nextHandle (w.bind name v).2.store := by
  refine Store.backs_transfer v.claims _ rfl (fun k _ => rfl) fun k _ => ?_
  have same := Store.holders_claimAll v.claims w.store (· == .handle k)
  have units := countP_forget_le name (· == .handle k) w.store.bindings
  have added : (valueClaims (forget name w.store.bindings ++ [(name, v)])).countP (· == .handle k)
      = (valueClaims (forget name w.store.bindings)).countP (· == .handle k)
        + v.claims.countP (· == .handle k) := by
    rw [valueClaims, List.flatMap_append, List.countP_append, List.flatMap_singleton]
    rfl
  rw [Store.holders_handle] at same
  rw [Store.holders_handle, ← same]
  simp only [withStore, Store.claimAll_bindings] at added units ⊢
  omega

theorem backs_dropGlobal (name : String) (w : World) :
    w.store.Backs w.store.nextHandle (w.dropGlobal name).2.store := by
  refine Store.backs_transfer [] _ rfl (fun k _ => rfl) fun k _ => ?_
  have units := countP_forget_le name (· == .handle k) w.store.globals
  rw [Store.holders_handle, Store.holders_handle]
  simp only [withStore, List.countP_nil] at units ⊢
  omega

theorem backs_unbind (name : String) (w : World) :
    w.store.Backs w.store.nextHandle (w.unbind name).2.store := by
  refine Store.backs_transfer [] _ rfl (fun k _ => rfl) fun k _ => ?_
  have units := countP_forget_le name (· == .handle k) w.store.bindings
  rw [Store.holders_handle, Store.holders_handle]
  simp only [withStore, List.countP_nil] at units ⊢
  omega

theorem backs_withInstance {α : Type} {a : Address} {f : Instance → Outcome α × World}
    (backs : ∀ i, w.store.Backs w.store.nextHandle (f i).2.store) :
    w.store.Backs w.store.nextHandle (w.withInstance a f).2.store := by
  unfold withInstance
  split
  · exact backs _
  · exact fun _ _ backed => .inl backed

theorem backs_invoke {call : Action (Except String Slot × List Slot)}
    (backs : ∀ w : World, w.store.Backs w.store.nextHandle (call w).2.store) (w : World) :
    w.store.Backs w.store.nextHandle (w.invoke call).2.store := by
  unfold invoke
  split
  · exact backs { w with signals := .guarded }
  · exact backs w

/-- Every answer backs the handles that were backed. -/
theorem backs_answer {calls : Calls} (along : calls.Along Backs) (w : World) (r : Request) :
    w.Backs (w.answer calls r).2 := by
  refine ⟨kept_endures.answer (along.mono Backs.endures) w r, ?_⟩
  have still : w.store.Backs w.store.nextHandle w.store := fun _ _ backed => .inl backed
  have alone {s : Store} (handles : s.handles = w.store.handles)
      (closures : s.closures = w.store.closures) (held : s.held = w.store.held)
      (bindings : s.bindings = w.store.bindings) (globals : s.globals = w.store.globals) :
      w.store.Backs w.store.nextHandle s :=
    Store.backs_of_eq handles closures held bindings globals
  cases r with
  | entry t | raise signal =>
    simp only [answer]
    split <;> exact still
  | trace entries =>
    simp only [answer]
    split
    · have traced := (reading_trace entries w).store
      exact alone (by rw [traced]) (by rw [traced]) (by rw [traced]; rfl) (by rw [traced])
        (by rw [traced])
    · exact still
  | liveInstance a => exact backs_withInstance fun _ => still
  | sink a | storeProperty a name slot | takeDirect a =>
    exact backs_withInstance fun _ => alone rfl rfl rfl rfl rfl
  | giveBackDirect a =>
    refine backs_withInstance fun _ => ?_
    exact Store.backs_transfer [] [.reference a] rfl (fun _ _ => rfl) fun _ _ => Nat.le_refl _
  | sinkDirect a =>
    refine backs_withInstance fun i => ?_
    split
    · exact alone rfl rfl rfl rfl rfl
    · exact backs_withInstance fun _ => alone rfl rfl rfl rfl rfl
  | create number floating =>
    refine Store.backs_transfer (t := (w.createHeld number floating).2.store) [] []
      (by rw [Store.release]; rfl) (fun _ _ => rfl) fun k _ => ?_
    rw [Store.holders_handle, Store.holders_handle]
    exact Nat.le_refl _
  | attach a signal reaction =>
    exact backs_withInstance fun i => backs_addConnection a i signal reaction w.store
  | hold c => exact backs_hold c w
  | letGo c =>
    by_cases held : w.store.held.contains c = true
    · have answered : w.answer calls (.letGo c) = (w.withStore (w.store.dropHeld c)).release [c] :=
        if_pos held
      rw [answered]
      exact backs_letGo (List.contains_iff_mem.mp held)
    · have answered : w.answer calls (.letGo c) = (.done (), w) := if_neg held
      rw [answered]
      exact still
  | settle mark kept => exact backs_settle w mark kept
  | dropGlobal name => exact backs_dropGlobal name w
  | unbind name => exact backs_unbind name w
  | storeGlobal name v => exact backs_storeGlobal name v w
  | bind name v => exact backs_bind name v w
  | openHandle info attachment keeper => exact backs_openHandle w info attachment keeper
  | openBlock info size =>
    exact backs_openHandle ((w.place [] size).2.withStore
      { w.store with blocks := (w.place [] size).1 :: w.store.blocks }) _ _ _
  | invoke callable inputs outputs =>
    exact backs_invoke (fun w => (along.native callable inputs outputs w).store) w
  | callHost target arguments => exact (along.host target arguments w).store
  | perform step => exact (along.step step w).store
  | assignGlobal name v => exact (along.assign name v w).store
  | _ => exact alone rfl rfl rfl rfl rfl

/-- Handles are backed from one answer to the next. -/
theorem kept_backs : Kept Backs := ⟨Backs.refl, Backs.trans, backs_answer⟩

end World
end ObjectBridge
