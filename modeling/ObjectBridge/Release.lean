import ObjectBridge.Store

/-!
# Giving claims back

Giving back the last claim of a thing ends the thing, and the claims it held are given back in
turn.  The work is a list of claims; it shrinks together with the weight of the store, so it always
ends.  A reference to an instance that is not live cannot be given back: its address is reported,
and the rest of the work goes on.
-/

namespace ObjectBridge

/-- The weight of a handle bounds the work that giving it back can make. -/
def HandleRecord.weight (r : HandleRecord) : Nat := r.shares + r.claims.length

/-- The weight of a connection record bounds the work that giving it back can make. -/
def Closure.weight (c : Closure) : Nat := c.shares + c.reaction.claims.length

/-- The weight of an instance bounds the work that giving it back can make. -/
def Instance.weight (i : Instance) : Nat := i.references + i.claims.length

namespace Store

/-- The weight of everything that is live. -/
def weight (s : Store) : Nat :=
  s.handles.weight HandleRecord.weight + s.closures.weight Closure.weight
    + s.instances.weight Instance.weight

/-- Take a live instance out of the store. -/
def finalize (s : Store) (a : Address) : Store :=
  { s with instances := s.instances.erase a, finalized := s.finalized + 1 }

/-- Give back claims and everything that ends with them.  The result lists the addresses that were
given back without being live. -/
def release (claims : List Claim) (s : Store) : List Address × Store :=
  match claims with
  | [] => ([], s)
  | .entry t :: rest => release rest { s with ledger := s.ledger.giveBack t }
  | .block a :: rest => release rest { s with blocks := s.blocks.erase a }
  | .handle h :: rest =>
    match _found : s.handles.get? h with
    | none => release rest s
    | some r =>
      if r.shares ≤ 1 then release (r.claims ++ rest) { s with handles := s.handles.erase h }
      else release rest { s with handles := s.handles.set h { r with shares := r.shares - 1 } }
  | .closure c :: rest =>
    match _found : s.closures.get? c with
    | none => release rest s
    | some r =>
      if r.shares ≤ 1 then
        release (r.reaction.claims ++ rest) { s with closures := s.closures.erase c }
      else release rest { s with closures := s.closures.set c { r with shares := r.shares - 1 } }
  | .reference a :: rest =>
    match _found : s.instances.get? a with
    | none =>
      let (faults, s) := release rest s
      (a :: faults, s)
    | some i =>
      if i.references ≤ 1 then release (i.claims ++ rest) (s.finalize a)
      else
        release rest
          { s with instances := s.instances.set a { i with references := i.references - 1 } }
  termination_by claims.length + s.weight
  decreasing_by
    all_goals simp only [weight, finalize, List.length_cons, List.length_append]
    · omega
    · omega
    · omega
    · have := Table.weight_erase HandleRecord.weight s.handles h r _found
      simp only [HandleRecord.weight] at this ⊢
      omega
    · have := Table.weight_set HandleRecord.weight s.handles h r
        { r with shares := r.shares - 1 } _found
      simp only [HandleRecord.weight, HandleRecord.claims] at this ⊢
      omega
    · omega
    · have := Table.weight_erase Closure.weight s.closures c r _found
      simp only [Closure.weight] at this ⊢
      omega
    · have := Table.weight_set Closure.weight s.closures c r
        { r with shares := r.shares - 1 } _found
      simp only [Closure.weight] at this ⊢
      omega
    · omega
    · have := Table.weight_erase Instance.weight s.instances a i _found
      simp only [Instance.weight] at this ⊢
      omega
    · have := Table.weight_set Instance.weight s.instances a i
        { i with references := i.references - 1 } _found
      simp only [Instance.weight, Instance.claims] at this ⊢
      omega

end Store

end ObjectBridge
