import ObjectBridge.World
import Mathlib.Data.List.Count
import Mathlib.Data.Nat.Basic
import Mathlib.Order.Basic
import Mathlib.Tactic.Common

/-!
# The books of a store

Every counted thing has a count, and the store can also list who holds claims of it: temporaries,
variables, globals, handles, connection records and instances.  The books are in order when the two
agree for everything that is live, up to the references that direct calls took.  What is no longer
live is never made again under the same number, so claims of it that are still held do no harm;
only the references to an instance that is gone are bounded by what direct calls gave back too
often.

Claims that are about to be given back are owed: they are no longer listed with a holder, but their
units are still counted.
-/

namespace ObjectBridge

/-- Whether a claim is a reference to an entry. -/
def Claim.isEntry : Claim → Bool
  | .entry _ => true
  | _ => false

/-- The claims of the values of some names. -/
def valueClaims (values : List (String × Value)) : List Claim :=
  values.flatMap fun row => row.2.claims

namespace Store

/-- The number of the claims of a kind that someone holds. -/
def holders (s : Store) (p : Claim → Bool) : Nat :=
  s.held.countP p + (valueClaims s.bindings).countP p + (valueClaims s.globals).countP p
    + s.handles.weight (fun r => r.claims.countP p)
    + s.closures.weight (fun c => c.reaction.claims.countP p)
    + s.instances.weight (fun i => i.claims.countP p)

/-- What the counts of a store say about the number of units of a claim. -/
def counts (s : Store) : Claim → Nat → Prop
  | .entry t, n => s.ledger.get t = s.entryBalance.get t + n
  | .handle h, n =>
    match s.handles.get? h with
    | some r => r.shares = n
    | none => s.nextHandle ≤ h → n = 0
  | .closure c, n =>
    match s.closures.get? c with
    | some r => r.shares = n
    | none => s.nextClosure ≤ c → n = 0
  | .reference a, n =>
    match s.instances.get? a with
    | some i => (i.references : Int) = s.instanceBalance.get a + n
    | none => s.instanceBalance.get a + n ≤ 0
  | .block a, n => s.blocks.count a = n

/-- The number of connections that name a connection record. -/
def namings (s : Store) (c : ClosureId) : Nat :=
  s.instances.weight fun i => i.claims.count (.closure c)

/-- A store with another instance at an address. -/
def setInstance (s : Store) (a : Address) (i : Instance) : Store :=
  { s with instances := s.instances.set a i }

/-- The books of a store are in order while some claims are owed; `next` is the least address that
is not yet reserved. -/
structure Accounted (s : Store) (next : Address) (owed : List Claim) : Prop where
  /-- Storage lies above all numbers of 64 bits. -/
  storage : UInt64.size ≤ next
  /-- Every count is the number of units that are held or owed. -/
  counted : ∀ c, s.counts c (s.holders (· == c) + owed.count c)
  /-- The total of the references to entries is the number that is held or owed. -/
  total : s.ledger.total
    = s.entryBalance.total + (s.holders Claim.isEntry + owed.countP Claim.isEntry : Nat)
  /-- A live handle has shares, and its keeper is older. -/
  handles : ∀ h r, s.handles.get? h = some r →
    0 < r.shares ∧ h < s.nextHandle ∧ ∀ k, r.keeper = some k → k < h
  /-- A live connection record has shares. -/
  closures : ∀ c r, s.closures.get? c = some r → 0 < r.shares ∧ c < s.nextClosure
  /-- A live instance has references, and its storage is reserved. -/
  instances : ∀ a i, s.instances.get? a = some i → 0 < i.references ∧ a < next
  /-- At most one connection names a connection record, and none one that is not live. -/
  named : ∀ c, s.namings c ≤ if s.closures.contains c then 1 else 0
  /-- Direct calls only take references to what was made. -/
  balanced : ∀ a, next ≤ a → s.instanceBalance.get a = 0
  /-- No variable is bound twice. -/
  bindings : (s.bindings.map Prod.fst).Nodup
  /-- No global is set twice. -/
  globals : (s.globals.map Prod.fst).Nodup
  /-- What was made is live or was finalized. -/
  made : s.created = s.live + s.finalized

end Store

/-- The books of an empty store are in order. -/
theorem Store.accounted_empty {next : Address} (storage : UInt64.size ≤ next) :
    ({} : Store).Accounted next [] where
  storage := storage
  counted := fun c => by
    have nobody : ({} : Store).holders (· == c) = 0 := rfl
    rw [nobody]
    cases c <;> simp [counts]
  total := rfl
  handles := fun h r live => by simp at live
  closures := fun c r live => by simp at live
  instances := fun a i live => by simp at live
  named := fun c => Nat.zero_le _
  balanced := fun a _ => rfl
  bindings := List.nodup_nil
  globals := List.nodup_nil
  made := rfl

/-- The numbers below which every handle and every connection record lies. -/
abbrev Horizon := HandleId × ClosureId

/-- The numbers that the next handle and the next connection record get. -/
def Store.horizon (s : Store) : Horizon := (s.nextHandle, s.nextClosure)

/-- A claim that a program may make once a horizon is reached. -/
def Claim.Known (z : Horizon) : Claim → Prop
  | .entry _ => True
  | .handle h => h < z.1
  | .closure c => c < z.2
  | .reference _ => False
  | .block _ => False

/-- A value that a program may use once a horizon is reached. -/
def Value.Known (z : Horizon) (v : Value) : Prop := ∀ c ∈ v.claims, c.Known z

theorem Claim.Known.mono {z z' : Horizon} (later : z ≤ z') {c : Claim} (known : c.Known z) :
    c.Known z' := by
  cases c with
  | handle h => exact Nat.lt_of_lt_of_le known later.1
  | closure c => exact Nat.lt_of_lt_of_le known later.2
  | entry t => trivial
  | reference a => exact known
  | block a => exact known

theorem Value.Known.mono {z z' : Horizon} (later : z ≤ z') {v : Value} (known : v.Known z) :
    v.Known z' :=
  fun c member => (known c member).mono later

namespace Store

variable {s : Store} {next : Address} {owed : List Claim}

/-- What someone holds lies below the horizon. -/
theorem Accounted.lt_of_held (books : s.Accounted next owed) :
    (∀ h, 0 < s.holders (· == .handle h) → h < s.nextHandle)
      ∧ ∀ c, 0 < s.holders (· == .closure c) → c < s.nextClosure := by
  constructor
  · intro h some_holder
    have count := books.counted (.handle h)
    by_contra beyond
    simp only [counts] at count
    split at count
    · next r live => exact beyond (books.handles h r live).2.1
    · have none_left := count (Nat.le_of_not_lt beyond)
      omega
  · intro c some_holder
    have count := books.counted (.closure c)
    by_contra beyond
    simp only [counts] at count
    split at count
    · next r live => exact beyond (books.closures c r live).2
    · have none_left := count (Nat.le_of_not_lt beyond)
      omega

/-- Nothing stands at an address that is not yet reserved. -/
theorem Accounted.unreserved (books : s.Accounted next owed) {a : Address} (free : next ≤ a) :
    s.instances.get? a = none := by
  by_contra present
  obtain ⟨i, live⟩ := Option.ne_none_iff_exists'.mp present
  exact Nat.not_lt.mpr free (books.instances a i live).2

/-- The number of a new handle is that of no handle. -/
theorem Accounted.handle_fresh (books : s.Accounted next owed) :
    s.handles.get? s.nextHandle = none := by
  by_contra present
  obtain ⟨r, live⟩ := Option.ne_none_iff_exists'.mp present
  exact Nat.lt_irrefl _ (books.handles _ r live).2.1

/-- The number of a new connection record is that of no connection record. -/
theorem Accounted.closure_fresh (books : s.Accounted next owed) :
    s.closures.get? s.nextClosure = none := by
  by_contra present
  obtain ⟨r, live⟩ := Option.ne_none_iff_exists'.mp present
  exact Nat.lt_irrefl _ (books.closures _ r live).2

end Store
end ObjectBridge
