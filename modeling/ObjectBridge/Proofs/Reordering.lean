import ObjectBridge.Proofs.Ledger

/-!
# The order of giving back does not matter

Giving one claim back touches only the thing that the claim is about, so two claims of different
things can be given back in either order.  What ends with a thing is owed next, and the work of
giving back always ends; so a list of claims leaves the same store in every order, and roots can be
dropped in every order.
-/

namespace ObjectBridge

namespace Table

variable {α : Type} {key k : Nat} {x y : α}

theorem replace_comm (other : k ≠ key) (rows : List (Nat × α)) :
    replace k y (replace key x rows) = replace key x (replace k y rows) := by
  induction rows with
  | nil => rfl
  | cons row rest ih =>
    obtain ⟨j, z⟩ := row
    by_cases first : j = key
    · simp [replace, first, Ne.symm other]
    · by_cases second : j = k <;> simp [replace, first, second, other, ih]

theorem discard_comm (key k : Nat) (rows : List (Nat × α)) :
    discard k (discard key rows) = discard key (discard k rows) := by
  induction rows with
  | nil => rfl
  | cons row rest ih =>
    obtain ⟨j, z⟩ := row
    by_cases first : j = key
    · by_cases second : j = k
      · simp [discard, ← first, ← second]
      · simp [discard, first, first ▸ second]
    · by_cases second : j = k
      · simp [discard, second, second ▸ first]
      · simp [discard, first, second, ih]

theorem replace_discard (other : k ≠ key) (rows : List (Nat × α)) :
    replace k y (discard key rows) = discard key (replace k y rows) := by
  induction rows with
  | nil => rfl
  | cons row rest ih =>
    obtain ⟨j, z⟩ := row
    by_cases first : j = key
    · simp [replace, discard, first, Ne.symm other]
    · by_cases second : j = k <;> simp [replace, discard, first, second, other, ih]

theorem ext {t u : Table α} (same : t.rows = u.rows) : t = u := by
  obtain ⟨rows, _⟩ := t
  cases same
  rfl

theorem set_comm (t : Table α) (other : k ≠ key) :
    (t.set key x).set k y = (t.set k y).set key x :=
  ext (replace_comm other t.rows)

theorem erase_comm (t : Table α) (key k : Nat) : (t.erase key).erase k = (t.erase k).erase key :=
  ext (discard_comm key k t.rows)

theorem set_erase (t : Table α) (other : k ≠ key) :
    (t.erase key).set k y = (t.set k y).erase key :=
  ext (replace_discard other t.rows)

/-- Count the entry of a number down.  The last unit takes the entry away, and it is given. -/
def countDown (count : α → Nat) (fewer : α → α) (t : Table α) (key : Nat) : Option α × Table α :=
  match t.get? key with
  | none => (none, t)
  | some x => if count x ≤ 1 then (some x, t.erase key) else (none, t.set key (fewer x))

variable {count : α → Nat} {fewer : α → α}

/-- Counting one entry down does not touch the others. -/
theorem get?_countDown (t : Table α) (other : k ≠ key) :
    (t.countDown count fewer key).2.get? k = t.get? k := by
  unfold countDown
  split
  · rfl
  · split
    · rw [get?_erase, if_neg other]
    · rw [get?_set, if_neg other]

theorem countDown_congr {t u : Table α} (same : t.get? key = u.get? key) :
    (t.countDown count fewer key).1 = (u.countDown count fewer key).1 := by
  unfold countDown
  rw [same]
  split
  · rfl
  · split <;> rfl

/-- Two entries can be counted down in either order. -/
theorem countDown_comm (t : Table α) (other : k ≠ key) :
    ((t.countDown count fewer key).2.countDown count fewer k).2
      = ((t.countDown count fewer k).2.countDown count fewer key).2 := by
  have first : (t.countDown count fewer key).2.get? k = t.get? k := get?_countDown t other
  have second : (t.countDown count fewer k).2.get? key = t.get? key :=
    get?_countDown t (Ne.symm other)
  unfold countDown at first second ⊢
  rw [first, second]
  cases t.get? key with
  | none => cases t.get? k <;> rfl
  | some x =>
    cases t.get? k with
    | none => rfl
    | some y =>
      by_cases last : count x ≤ 1 <;> by_cases ends : count y ≤ 1
      · simp only [last, ends, if_true, erase_comm t key k]
      · simp only [last, ends, if_true, if_false, set_erase t other]
      · simp only [last, ends, if_true, if_false, set_erase t (Ne.symm other)]
      · simp only [last, ends, if_false, set_comm t other]

/-- Counting down takes at least the weight of what ends, and of one unit otherwise. -/
theorem weight_countDown (count : α → Nat) (fewer : α → α) (f claims : α → Nat) (t : Table α)
    (key : Nat) (counted : ∀ x, claims x ≤ f x)
    (lessened : ∀ x, f (fewer x) ≤ f x) :
    ((t.countDown count fewer key).1.map claims).getD 0 + (t.countDown count fewer key).2.weight f
      ≤ t.weight f := by
  unfold countDown
  split
  · exact Nat.le_of_eq (Nat.zero_add _)
  · next x found =>
    split
    · have erased := weight_erase f t key x found
      have within := counted x
      simp only [Option.map_some, Option.getD_some]
      omega
    · have changed := weight_set f t key x (fewer x) found
      have less := lessened x
      simp only [Option.map_none, Option.getD_none]
      omega

end Table

/-- The record of a handle with one share less. -/
def HandleRecord.fewer (r : HandleRecord) : HandleRecord := { r with shares := r.shares - 1 }

/-- A connection record with one share less. -/
def Closure.fewer (c : Closure) : Closure := { c with shares := c.shares - 1 }

/-- An instance with one reference less. -/
def Instance.fewer (i : Instance) : Instance := { i with references := i.references - 1 }

namespace Store

variable {s s' : Store} {c d : Claim} {claims claims' : List Claim}

/-- Give one claim back: what is owed next, and the store. -/
def pay (s : Store) : Claim → List Claim × Store
  | .entry t => ([], { s with ledger := s.ledger.giveBack t })
  | .block a => ([], { s with blocks := s.blocks.erase a })
  | .handle h =>
    let paid := s.handles.countDown HandleRecord.shares HandleRecord.fewer h
    ((paid.1.map HandleRecord.claims).getD [], { s with handles := paid.2 })
  | .closure c =>
    let paid := s.closures.countDown Closure.shares Closure.fewer c
    ((paid.1.map fun r => r.reaction.claims).getD [], { s with closures := paid.2 })
  | .reference a =>
    let paid := s.instances.countDown Instance.references Instance.fewer a
    ((paid.1.map Instance.claims).getD [],
      { s with
        instances := paid.2
        finalized := s.finalized + (paid.1.map fun _ => 1).getD 0 })

/-- Claims are given back one after the other, and what becomes owed comes first. -/
theorem release_cons (c : Claim) (rest : List Claim) (s : Store) :
    (s.release (c :: rest)).2 = ((s.pay c).2.release ((s.pay c).1 ++ rest)).2 := by
  cases c with
  | entry t => rw [release, pay, List.nil_append]
  | block a => rw [release, pay, List.nil_append]
  | handle h =>
    rw [release, pay, Table.countDown]
    split
    · next gone => simp [gone]
    · next r live => simp only [live]; split <;> rfl
  | closure c =>
    rw [release, pay, Table.countDown]
    split
    · next gone => simp [gone]
    · next r live => simp only [live]; split <;> rfl
  | reference a =>
    rw [release, pay, Table.countDown]
    split
    · next gone => simp [gone]
    · next i live => simp only [live]; split <;> rfl

/-- The address that giving one claim back reports: that of an instance that is not live. -/
def fault (s : Store) : Claim → List Address
  | .reference a => if s.isLive a then [] else [a]
  | _ => []

/-- What giving claims back reports is what each of them reports in turn. -/
theorem faults_cons (c : Claim) (rest : List Claim) (s : Store) :
    (s.release (c :: rest)).1 = s.fault c ++ ((s.pay c).2.release ((s.pay c).1 ++ rest)).1 := by
  cases c with
  | entry t | block a =>
    rw [release, pay, List.nil_append]
    rfl
  | handle h =>
    change _ = ((s.pay (.handle h)).2.release ((s.pay (.handle h)).1 ++ rest)).1
    rw [release, pay, Table.countDown]
    split
    · next gone => simp [gone]
    · next r live => simp only [live]; split <;> rfl
  | closure c =>
    change _ = ((s.pay (.closure c)).2.release ((s.pay (.closure c)).1 ++ rest)).1
    rw [release, pay, Table.countDown]
    split
    · next gone => simp [gone]
    · next r live => simp only [live]; split <;> rfl
  | reference a =>
    rw [release, pay, fault, isLive, Table.contains, Table.countDown]
    split
    · next gone => simp [gone]
    · next i live => simp only [live]; split <;> rfl

theorem length_getD_map {α : Type} (f : α → List Claim) (x : Option α) :
    ((x.map f).getD []).length = (x.map fun y => (f y).length).getD 0 := by
  cases x <;> rfl

/-- Giving one claim back takes as much weight from the store as there is owed next. -/
theorem weight_pay (c : Claim) (s : Store) : (s.pay c).1.length + (s.pay c).2.weight ≤ s.weight := by
  cases c with
  | entry t => exact Nat.le_of_eq (Nat.zero_add _)
  | block a => exact Nat.le_of_eq (Nat.zero_add _)
  | handle h =>
    have less := Table.weight_countDown HandleRecord.shares HandleRecord.fewer HandleRecord.weight
      (fun r => r.claims.length) s.handles h (fun r => Nat.le_add_left _ _)
      (fun r => Nat.add_le_add_right (Nat.sub_le _ _) _)
    simp only [pay, length_getD_map, weight]
    omega
  | closure c =>
    have less := Table.weight_countDown Closure.shares Closure.fewer Closure.weight
      (fun r => r.reaction.claims.length) s.closures c (fun r => Nat.le_add_left _ _)
      (fun r => Nat.add_le_add_right (Nat.sub_le _ _) _)
    simp only [pay, length_getD_map, weight]
    omega
  | reference a =>
    have less := Table.weight_countDown Instance.references Instance.fewer Instance.weight
      (fun i => i.claims.length) s.instances a (fun i => Nat.le_add_left _ _)
      (fun i => Nat.add_le_add_right (Nat.sub_le _ _) _)
    simp only [pay, length_getD_map, weight]
    omega

/-- What holds when nothing is owed, and before a claim is given back if it holds after, holds of
all claims. -/
theorem release_induction {P : List Claim → Store → Prop} (nil : ∀ s, P [] s)
    (cons : ∀ c rest s, P ((s.pay c).1 ++ rest) (s.pay c).2 → P (c :: rest) s)
    (claims : List Claim) (s : Store) : P claims s := by
  induction work : claims.length + s.weight using Nat.strong_induction_on generalizing claims s with
  | _ n ih =>
    cases claims with
    | nil => exact nil s
    | cons c rest =>
      refine cons c rest s (ih _ ?_ _ _ rfl)
      have less := weight_pay c s
      simp only [List.length_append, List.length_cons] at work ⊢
      omega

/-- Two stores that are the same, except that their ledgers may list their counts in another
order. -/
structure Alike (s s' : Store) : Prop where
  /-- All but the ledgers is the same. -/
  rest : s' = { s with ledger := s'.ledger }
  /-- The same references to each entry were taken and not given back. -/
  ledger : ∀ t, s'.ledger.get t = s.ledger.get t
  /-- So were those to all entries together. -/
  total : s'.ledger.total = s.ledger.total

theorem Alike.refl (s : Store) : s.Alike s := ⟨rfl, fun _ => rfl, rfl⟩

theorem Alike.symm (alike : s.Alike s') : s'.Alike s :=
  ⟨by rw [alike.rest], fun t => (alike.ledger t).symm, alike.total.symm⟩

theorem Alike.trans {s'' : Store} (first : s.Alike s') (second : s'.Alike s'') : s.Alike s'' :=
  ⟨by rw [second.rest, first.rest], fun t => (second.ledger t).trans (first.ledger t),
    second.total.trans first.total⟩

theorem Alike.weight (alike : s.Alike s') : s'.weight = s.weight := by
  rw [alike.rest]
  rfl

/-- Stores that are alike owe the same next, and stay alike. -/
theorem Alike.pay (alike : s.Alike s') (c : Claim) :
    (s'.pay c).1 = (s.pay c).1 ∧ (s.pay c).2.Alike (s'.pay c).2 := by
  obtain ⟨rest, ledger, total⟩ := alike
  cases c with
  | entry t =>
    refine ⟨rfl, ?_, fun u => ?_, ?_⟩
    · rw [rest]
      rfl
    · simp only [Store.pay, Tally.get_giveBack, ledger]
    · simp only [Store.pay, Tally.total_giveBack, total]
  | handle h | closure c | reference a | block a =>
    rw [rest]
    exact ⟨rfl, rfl, ledger, total⟩

/-- Giving back the same claims to stores that are alike meets the same faults. -/
theorem Alike.faults (alike : s.Alike s') (claims : List Claim) :
    (s'.release claims).1 = (s.release claims).1 := by
  induction claims, s using release_induction generalizing s' with
  | nil s => rw [release, release]
  | cons c rest s ih =>
    obtain ⟨owed, near⟩ := alike.pay c
    have fault : s'.fault c = s.fault c := by
      rw [alike.rest]
      cases c <;> rfl
    rw [faults_cons, faults_cons, fault, owed, ih near]

/-- Giving back a claim of another thing does not change what is owed next. -/
theorem owed_pay_pay (s : Store) (different : c ≠ d) : ((s.pay d).2.pay c).1 = (s.pay c).1 := by
  cases c with
  | entry t => rfl
  | block a => rfl
  | handle h =>
    cases d with
    | handle k =>
      have other : h ≠ k := fun same => different (same ▸ rfl)
      simp only [pay, Table.countDown_congr (Table.get?_countDown s.handles other)]
    | _ => rfl
  | closure c =>
    cases d with
    | closure k =>
      have other : c ≠ k := fun same => different (same ▸ rfl)
      simp only [pay, Table.countDown_congr (Table.get?_countDown s.closures other)]
    | _ => rfl
  | reference a =>
    cases d with
    | reference b =>
      have other : a ≠ b := fun same => different (same ▸ rfl)
      simp only [pay, Table.countDown_congr (Table.get?_countDown s.instances other)]
    | _ => rfl

/-- Claims of two things can be given back in either order. -/
theorem pay_comm (s : Store) (different : c ≠ d) :
    ((s.pay c).2.pay d).2.Alike ((s.pay d).2.pay c).2 := by
  cases c with
  | entry t =>
    cases d with
    | entry u =>
      refine ⟨rfl, fun v => ?_, ?_⟩
      · simp only [pay, Tally.get_giveBack]
        omega
      · simp only [pay, Tally.total_giveBack]
    | _ => exact .refl _
  | block a =>
    cases d with
    | block b =>
      simp only [pay, List.erase_comm]
      exact .refl _
    | _ => exact .refl _
  | handle h =>
    cases d with
    | handle k =>
      have other : k ≠ h := fun same => different (same ▸ rfl)
      simp only [pay, Table.countDown_comm s.handles other]
      exact .refl _
    | _ => exact .refl _
  | closure c =>
    cases d with
    | closure k =>
      have other : k ≠ c := fun same => different (same ▸ rfl)
      simp only [pay, Table.countDown_comm s.closures other]
      exact .refl _
    | _ => exact .refl _
  | reference a =>
    cases d with
    | reference b =>
      have other : b ≠ a := fun same => different (same ▸ rfl)
      simp only [pay, Table.countDown_comm s.instances other,
        Table.countDown_congr (Table.get?_countDown s.instances other),
        Table.countDown_congr (Table.get?_countDown s.instances (Ne.symm other)),
        Nat.add_right_comm s.finalized]
      exact .refl _
    | _ => exact .refl _

/-- Claims with less than some work can be given back in any order. -/
def Unordered (n : Nat) : Prop :=
  ∀ {claims claims' : List Claim} {s s' : Store}, claims.length + s.weight < n → s.Alike s' →
    claims.Perm claims' → (s.release claims).2.Alike (s'.release claims').2

/-- After its first claim, another one of a list can be given back next. -/
theorem Unordered.next {n : Nat} (unordered : Unordered n) {rest others : List Claim}
    (different : c ≠ d) (order : rest.Perm (d :: others)) (work : rest.length + 1 + s.weight = n) :
    (s.release (c :: rest)).2.Alike
      (((s.pay c).2.pay d).2.release ((s.pay d).1 ++ ((s.pay c).1 ++ others))).2 := by
  have less := weight_pay c s
  have forward : ((s.pay c).2.release ((s.pay c).1 ++ rest)).2.Alike
      ((s.pay c).2.release (d :: ((s.pay c).1 ++ others))).2 :=
    unordered (by rw [List.length_append]; omega) (.refl _)
      ((order.append_left _).trans List.perm_middle)
  rwa [← release_cons, release_cons d, owed_pay_pay s (Ne.symm different)] at forward

/-- Which of two claims is given back first does not matter for the others. -/
theorem Unordered.swap {n : Nat} (unordered : Unordered n) {others : List Claim}
    (different : c ≠ d) (alike : s.Alike s') (work : others.length + 2 + s.weight = n) :
    (((s.pay c).2.pay d).2.release ((s.pay d).1 ++ ((s.pay c).1 ++ others))).2.Alike
      (((s'.pay d).2.pay c).2.release ((s'.pay c).1 ++ ((s'.pay d).1 ++ others))).2 := by
  obtain ⟨owed, near⟩ := alike.pay d
  rw [owed, (alike.pay c).1]
  refine unordered ?_ ((pay_comm s different).trans (near.pay c).2) ?_
  · have first := weight_pay c s
    have second := weight_pay d (s.pay c).2
    rw [owed_pay_pay s (Ne.symm different)] at second
    simp only [List.length_append]
    omega
  · rw [← List.append_assoc, ← List.append_assoc]
    exact List.perm_append_comm.append_right _

/-- Claims that are given back in another order, to stores that are alike, leave stores that are
alike. -/
theorem Alike.release (alike : s.Alike s') (same : claims.Perm claims') :
    (s.release claims).2.Alike (s'.release claims').2 := by
  induction work : claims.length + s.weight using Nat.strong_induction_on
    generalizing claims claims' s s' with
  | _ n ih =>
    have unordered : Unordered n := fun less near order => ih _ less near order rfl
    cases claims with
    | nil =>
      cases same.nil_eq
      simpa only [Store.release] using alike
    | cons c rest =>
      cases claims' with
      | nil => exact absurd same.length_eq (Nat.succ_ne_zero _)
      | cons d rest' =>
        rw [List.length_cons] at work
        by_cases equal : c = d
        · subst equal
          obtain ⟨owed, near⟩ := alike.pay c
          have less := weight_pay c s
          rw [release_cons, release_cons, owed]
          exact unordered (by rw [List.length_append]; omega) near (same.cons_inv.append_left _)
        · -- each store gives back its first claim and then the first one of the other
          have member : d ∈ rest :=
            (List.mem_cons.mp (same.mem_iff.mpr List.mem_cons_self)).resolve_left (Ne.symm equal)
          have order : rest.Perm (d :: rest.erase d) := List.perm_cons_erase member
          have order' : rest'.Perm (c :: rest.erase d) :=
            (same.symm.trans ((order.cons c).trans (List.Perm.swap d c _))).cons_inv
          have shorter : rest.length = (rest.erase d).length + 1 := order.length_eq
          have shorter' : rest'.length = (rest.erase d).length + 1 := order'.length_eq
          have left := unordered.next equal order work
          have right := unordered.next (s := s') (Ne.symm equal) order'
            (by rw [alike.weight]; omega)
          exact left.trans ((unordered.swap equal alike (by omega)).trans right.symm)

/-- Claims that are given back one list after the other are given back one after the other. -/
theorem release_append (claims claims' : List Claim) (s : Store) :
    (s.release (claims ++ claims')).2 = ((s.release claims).2.release claims').2 := by
  induction claims, s using release_induction with
  | nil s => rw [Store.release, List.nil_append]
  | cons c rest s ih => rw [List.cons_append, release_cons, release_cons, ← ih, List.append_assoc]

/-- A store in which a root holds nothing any more. -/
def uproot (s : Store) : Root → Store
  | .binding name => { s with bindings := forget name s.bindings }
  | .setting name => { s with globals := forget name s.globals }
  | .temporary h => s.dropHeld (.handle h)

/-- What a root holds. -/
def rooted (s : Store) : Root → List Claim
  | .binding name => claimsOf name s.bindings
  | .setting name => claimsOf name s.globals
  | .temporary h => if s.held.contains (.handle h) then [.handle h] else []

/-- Giving claims back does not depend on what the roots hold. -/
theorem release_uproot (root : Root) (claims : List Claim) (s : Store) :
    ((s.uproot root).release claims).2 = (s.release claims).2.uproot root := by
  induction claims, s using release_induction with
  | nil s => rw [Store.release, Store.release]
  | cons c rest s ih =>
    have same : (s.uproot root).pay c = ((s.pay c).1, (s.pay c).2.uproot root) := by
      cases root <;> cases c <;> rfl
    rw [release_cons, release_cons, same]
    exact ih

theorem rooted_release (root : Root) (claims : List Claim) (s : Store) :
    (s.release claims).2.rooted root = s.rooted root := by
  cases root with
  | binding name => simp only [rooted, release_bindings]
  | setting name => simp only [rooted, release_globals]
  | temporary h => simp only [rooted, release_held]

theorem lookup_forget {α : Type} {name other : String} (different : name ≠ other)
    (values : List (String × α)) : (forget other values).lookup name = values.lookup name := by
  induction values with
  | nil => rfl
  | cons row rest ih =>
    obtain ⟨n, x⟩ := row
    by_cases dropped : n = other
    · have passed : (name == n) = false := beq_false_of_ne (dropped ▸ different)
      rw [forget, List.filter_cons_of_neg (by simpa using dropped), List.lookup_cons, passed]
      exact ih
    · rw [forget, List.filter_cons_of_pos (by simpa using dropped), List.lookup_cons,
        List.lookup_cons, ← ih, forget]

/-- What a root holds stays when another root is dropped. -/
theorem rooted_uproot {root other : Root} (different : root ≠ other) (s : Store) :
    (s.uproot other).rooted root = s.rooted root := by
  cases root with
  | binding name =>
    cases other with
    | binding n =>
      have names : name ≠ n := fun same => different (same ▸ rfl)
      simp only [rooted, uproot, claimsOf, lookup_forget names]
    | _ => rfl
  | setting name =>
    cases other with
    | setting n =>
      have names : name ≠ n := fun same => different (same ▸ rfl)
      simp only [rooted, uproot, claimsOf, lookup_forget names]
    | _ => rfl
  | temporary h =>
    cases other with
    | temporary k =>
      have handles : Claim.handle h ≠ .handle k := fun same => different (by cases same; rfl)
      simp only [rooted, uproot, dropHeld, List.contains_iff_mem, List.mem_erase_of_ne handles]
    | _ => rfl

theorem uproot_comm (root other : Root) (s : Store) :
    (s.uproot root).uproot other = (s.uproot other).uproot root := by
  cases root with
  | binding name =>
    cases other with
    | binding n => simp only [uproot, forget, List.filter_filter, Bool.and_comm]
    | _ => rfl
  | setting name =>
    cases other with
    | setting n => simp only [uproot, forget, List.filter_filter, Bool.and_comm]
    | _ => rfl
  | temporary h =>
    cases other with
    | temporary k => simp only [uproot, dropHeld, List.erase_comm]
    | _ => rfl

theorem Alike.uproot (alike : s.Alike s') (root : Root) : (s.uproot root).Alike (s'.uproot root) := by
  obtain ⟨rest, ledger, total⟩ := alike
  rw [rest]
  cases root <;> exact ⟨rfl, ledger, total⟩

theorem Alike.rooted (alike : s.Alike s') (root : Root) : s'.rooted root = s.rooted root := by
  rw [alike.rest]
  cases root <;> rfl

/-- Drop a root: what it held is given back. -/
def drop (s : Store) (root : Root) : Store := ((s.uproot root).release (s.rooted root)).2

theorem Alike.totals (alike : s.Alike s') : s'.totals = s.totals := by
  rw [Store.totals, Store.totals, alike.total, alike.rest]
  rfl

theorem Alike.drop (alike : s.Alike s') (root : Root) : (s.drop root).Alike (s'.drop root) := by
  rw [Store.drop, Store.drop, alike.rooted]
  exact (alike.uproot root).release (.refl _)

/-- Two roots can be dropped in either order. -/
theorem drop_comm (s : Store) (root other : Root) :
    ((s.drop root).drop other).Alike ((s.drop other).drop root) := by
  by_cases same : root = other
  · rw [same]
    exact .refl _
  · -- Both orders give back both lists of claims after both roots were taken away.
    have both {root other : Root} (different : root ≠ other) :
        (s.drop root).drop other
          = (((s.uproot root).uproot other).release (s.rooted root ++ s.rooted other)).2 := by
      rw [release_append, Store.drop, Store.drop, rooted_release,
        rooted_uproot (Ne.symm different), ← release_uproot other]
    rw [both same, both (Ne.symm same), uproot_comm]
    exact (Alike.refl _).release List.perm_append_comm

end Store

namespace World

/-- Two worlds that are the same, except for the order in which their ledgers list counts. -/
structure Alike (w w' : World) : Prop where
  /-- All but the stores is the same. -/
  rest : w' = { w with store := w'.store }
  /-- The stores are alike. -/
  store : w.store.Alike w'.store

variable {w w' : World}

theorem Alike.refl (w : World) : w.Alike w := ⟨rfl, .refl _⟩

theorem Alike.trans {w'' : World} (first : w.Alike w') (second : w'.Alike w'') : w.Alike w'' :=
  ⟨by rw [second.rest, first.rest], first.store.trans second.store⟩

/-- Dropping a root changes the store only. -/
theorem dropRoot_eq (w : World) (root : Root) :
    (w.dropRoot root).2 = { w with store := w.store.drop root } := by
  cases root with
  | binding name | setting name => rfl
  | temporary h =>
    rw [dropRoot, Store.drop, Store.rooted, Store.uproot]
    split
    · rfl
    · next unheld =>
      rw [List.contains_iff_mem] at unheld
      rw [Store.dropHeld, List.erase_of_not_mem unheld, Store.release]

theorem Alike.dropRoot (alike : w.Alike w') (root : Root) :
    (w.dropRoot root).2.Alike (w'.dropRoot root).2 := by
  rw [dropRoot_eq, dropRoot_eq]
  exact ⟨by rw [alike.rest], alike.store.drop root⟩

theorem Alike.dropRoots (alike : w.Alike w') (roots : List Root) :
    (w.dropRoots roots).2.Alike (w'.dropRoots roots).2 := by
  induction roots generalizing w w' with
  | nil => exact alike
  | cons root rest ih => exact ih (alike.dropRoot root)

theorem dropRoot_comm (w : World) (root other : Root) :
    ((w.dropRoot root).2.dropRoot other).2.Alike ((w.dropRoot other).2.dropRoot root).2 := by
  simp only [dropRoot_eq]
  exact ⟨rfl, w.store.drop_comm root other⟩

/-- Roots that are dropped in another order leave worlds that are alike. -/
theorem dropRoots_perm {roots roots' : List Root} (same : roots.Perm roots') (w : World) :
    (w.dropRoots roots).2.Alike (w.dropRoots roots').2 := by
  induction same generalizing w with
  | nil => exact .refl _
  | cons root _ ih => exact ih _
  | swap root other rest => exact (w.dropRoot_comm other root).dropRoots rest
  | trans _ _ first second => exact (first w).trans (second w)

theorem Alike.totals (alike : w.Alike w') : w'.store.totals = w.store.totals := alike.store.totals

end World

namespace Session

/-- At every boundary of every session at which no balance is negative, variables and globals can be
dropped in any order: no order panics, and what is left is the same.  The same instances are live,
with the same counts, properties and connections; as many were created and finalized; and the same
references to entries are outstanding. -/
theorem release_unordered (options : Options) (depth : Nat) (steps : List Script.Step) {w : World}
    (reached : w ∈ boundaries depth steps (start options))
    (balanced : ∀ a, 0 ≤ w.store.instanceBalance.get a) {roots roots' : List Root}
    (same : roots.Perm roots') :
    (∀ outcome ∈ (w.dropRoots roots).1 ++ (w.dropRoots roots').1, outcome = .done ())
      ∧ (w.dropRoots roots).2.Alike (w.dropRoots roots').2
      ∧ (w.dropRoots roots').2.store.instances = (w.dropRoots roots).2.store.instances
      ∧ (w.dropRoots roots').2.store.totals = (w.dropRoots roots).2.store.totals
      ∧ ∀ t, (w.dropRoots roots').2.store.ledger.get t = (w.dropRoots roots).2.store.ledger.get t := by
  have orderly := boundaries_orderly depth steps (start_orderly options) w reached
  have alike := World.dropRoots_perm same w
  refine ⟨fun outcome member => ?_, alike, ?_, alike.totals, alike.store.ledger⟩
  · rcases List.mem_append.mp member with left | right
    · exact orderly.dropRoots balanced roots outcome left
    · exact orderly.dropRoots balanced roots' outcome right
  · rw [alike.store.rest]

/-- Two instances, of which the connection of the first captures a handle on the second, and three
variables: one for each instance and one more for the second. -/
def sampleCascade : List Script.Step :=
  [.declareNamespace "Demo" "1.0",
    .declare (.object "Demo" "Widget" none false) (some "Widget"), sampleSignal,
    .makeInstance "Widget" "first", .makeInstance "Widget" "second",
    .connect "first" "changed" (.named "f") (some (.variable "second")),
    .set (.variable "second") (some "again")]

theorem release_unordered_cascade :
    let w := (advanceAll 1 sampleCascade (start {})).2
    let roots : List Root := [.binding "first", .binding "second", .binding "again"]
    let roots' : List Root := [.binding "again", .binding "second", .binding "first"]
    w.store.totals.live = 2 ∧ (w.dropRoots roots).2.store.totals.live = 0
      ∧ (w.dropRoots (roots.take 1)).2.store.totals.live = 1
      ∧ (w.dropRoots (roots'.take 2)).2.store.totals.live = 2
      ∧ (∀ outcome ∈ (w.dropRoots roots).1 ++ (w.dropRoots roots').1, outcome = .done ())
      ∧ (w.dropRoots roots).2.Alike (w.dropRoots roots').2
      ∧ (w.dropRoots roots').2.store.instances = (w.dropRoots roots).2.store.instances
      ∧ (w.dropRoots roots').2.store.totals = (w.dropRoots roots).2.store.totals
      ∧ ∀ t, (w.dropRoots roots').2.store.ledger.get t
          = (w.dropRoots roots).2.store.ledger.get t := by
  have balanced := Tally.get_nonneg
    (t := (advanceAll 1 sampleCascade (start {})).2.store.instanceBalance) (by decide +kernel)
  refine ⟨by decide +kernel, by decide +kernel, by decide +kernel, by decide +kernel, ?_⟩
  exact release_unordered {} 1 sampleCascade (last_mem_boundaries 1 sampleCascade (start {})) balanced
    (List.reverse_perm [Root.binding "again", Root.binding "second", Root.binding "first"])

end Session
end ObjectBridge
