import Mathlib.Data.List.Nodup
import Mathlib.Data.List.Perm.Subperm
import ObjectBridge.ListCursor
import ObjectBridge.Proofs.Vectors

/-!
# Chains of list nodes

A native list is a chain of nodes, each with the address of the next one, and the last one with the
null address.  The chain from a node on is unique, so it never comes back to a node, and each node
but the last has a byte that was written; a walk as long as the bound of the cursor therefore always
reaches the end of a list that has one.
-/

namespace ObjectBridge

namespace Memory

variable {m : Memory} {a : Address}

/-- The addresses that some write covers. -/
def covered (m : Memory) : List Address :=
  m.writes.flatMap fun w => (List.range w.cells.length).map (w.start + ·)

theorem length_covered (m : Memory) : m.covered.length = m.extent := by
  rw [covered, extent]
  induction m.writes with
  | nil => rfl
  | cons w rest ih =>
    rw [List.flatMap_cons, List.length_append, List.length_map, List.length_range, ih,
      List.foldr_cons]

/-- There are zero bytes where nothing was written. -/
theorem cell_of_not_covered (absent : a ∉ m.covered) : m.cell a = .byte 0 := by
  have none : (m.writes.findSome? fun w => w.cell? a) = none := by
    rw [List.findSome?_eq_none_iff]
    intro w member
    rw [Write.cell?]
    split
    · next above =>
      rw [List.getElem?_eq_none_iff]
      by_contra inside
      apply absent
      rw [covered, List.mem_flatMap]
      exact ⟨w, member, List.mem_map.mpr ⟨a - w.start, List.mem_range.mpr (Nat.not_le.mp inside),
        Nat.add_sub_cancel' above⟩⟩
    · rfl
  rw [cell, none, Option.getD_none]

/-- Where an address other than null is stored, a byte was written. -/
theorem exists_covered (stored : m.readAddress a ≠ 0) : ∃ i < 8, a + i ∈ m.covered := by
  by_contra absent
  push Not at absent
  have null : Cell.ofAddress 0 = List.replicate 8 (.byte 0) := by decide
  have zeros : m.Lies a (Cell.ofAddress 0) := by
    intro i within
    rw [Cell.length_ofAddress] at within
    rw [cell_of_not_covered (absent i within)]
    simp only [null, List.getElem_replicate]
  exact stored zeros.readAddress

end Memory

namespace ListCursor

variable {m : Memory} {a node : Address} {nodes others : List Address} {k : Nat}

/-- The nodes of a list that ends, from an address on. -/
def Chain (m : Memory) : Address → List Address → Prop
  | a, [] => a = 0
  | a, node :: rest => a = node ∧ node ≠ 0 ∧ Chain m (next m node) rest

/-- Whether some nodes are the chain from an address on. -/
instance Chain.decidable (m : Memory) (a : Address) (nodes : List Address) :
    Decidable (Chain m a nodes) :=
  match nodes with
  | [] => inferInstanceAs (Decidable (a = 0))
  | node :: rest =>
    have := Chain.decidable m (ListCursor.next m node) rest
    inferInstanceAs (Decidable (a = node ∧ node ≠ 0 ∧ Chain m (ListCursor.next m node) rest))

theorem Chain.unique (chain : Chain m a nodes) (other : Chain m a others) : nodes = others := by
  induction nodes generalizing a others with
  | nil =>
    cases others with
    | nil => rfl
    | cons node rest => exact absurd (other.1.symm.trans chain) other.2.1
  | cons node rest ih =>
    cases others with
    | nil => exact absurd (chain.1.symm.trans other) chain.2.1
    | cons node' rest' =>
      obtain ⟨rfl, _, onward⟩ := chain
      obtain ⟨rfl, _, onward'⟩ := other
      rw [ih onward onward']

/-- The address where a chain starts. -/
theorem Chain.headD (chain : Chain m a nodes) : nodes.headD 0 = a := by
  cases nodes with
  | nil => exact (show a = 0 from chain).symm
  | cons node rest => exact chain.1.symm

/-- The chain from a later node on. -/
theorem Chain.drop (chain : Chain m a nodes) (k : Nat) :
    Chain m (nodes[k]?.getD 0) (nodes.drop k) := by
  induction k generalizing a nodes with
  | zero =>
    cases nodes with
    | nil => rfl
    | cons node rest => exact chain.1 ▸ chain
  | succ k ih =>
    cases nodes with
    | nil => rfl
    | cons node rest => exact ih chain.2.2

theorem Chain.not_mem (chain : Chain m a (node :: nodes)) : node ∉ nodes := by
  intro member
  obtain ⟨k, within, same⟩ := List.getElem_of_mem member
  have later := chain.2.2.drop k
  have here : Chain m node (node :: nodes) := chain.1 ▸ chain
  rw [List.getElem?_eq_getElem within, Option.getD_some, same] at later
  have lengths := congrArg List.length (here.unique later)
  rw [List.length_cons, List.length_drop] at lengths
  omega

/-- A chain never comes back to a node. -/
theorem Chain.nodup (chain : Chain m a nodes) : nodes.Nodup := by
  induction nodes generalizing a with
  | nil => exact List.nodup_nil
  | cons node rest ih => exact List.nodup_cons.mpr ⟨chain.not_mem, ih chain.2.2⟩

theorem Chain.drop_getElem (chain : Chain m a nodes) (within : k < nodes.length) :
    Chain m nodes[k] (nodes.drop k) := by
  have here := chain.drop k
  rwa [List.getElem?_eq_getElem within, Option.getD_some] at here

theorem Chain.ne_zero (chain : Chain m a nodes) (within : k < nodes.length) : nodes[k] ≠ 0 := by
  have here := chain.drop_getElem within
  rw [List.drop_eq_getElem_cons within] at here
  exact here.2.1

/-- The node after a node of a chain. -/
theorem Chain.next (chain : Chain m a nodes) (within : k < nodes.length) :
    ListCursor.next m nodes[k] = nodes[k + 1]?.getD 0 := by
  have here := chain.drop_getElem within
  rw [List.drop_eq_getElem_cons within] at here
  rw [← here.2.2.headD, List.headD_eq_head?_getD, List.head?_drop]

/-- The node some steps behind the start of a chain. -/
theorem Chain.nodeAfter (chain : Chain m a nodes) (k : Nat) :
    ListCursor.nodeAfter m k a = nodes[k]?.getD 0 := by
  induction k generalizing a nodes with
  | zero =>
    rw [ListCursor.nodeAfter, ← chain.headD, List.headD_eq_head?_getD, List.head?_eq_getElem?]
  | succ k ih =>
    rw [ListCursor.nodeAfter]
    cases nodes with
    | nil => exact if_pos chain
    | cons node rest =>
      obtain ⟨rfl, present, onward⟩ := chain
      rw [if_neg present, ih onward, List.getElem?_cons_succ]

theorem Chain.nodes? (chain : Chain m a nodes) {limit : Nat} (room : nodes.length ≤ limit) :
    ListCursor.nodes? m limit a = some nodes := by
  induction nodes generalizing a limit with
  | nil => cases limit <;> exact if_pos chain
  | cons node rest ih =>
    obtain ⟨rfl, present, onward⟩ := chain
    cases limit with
    | zero => cases room
    | succ limit =>
      rw [ListCursor.nodes?, if_neg present, ih onward (Nat.le_of_succ_le_succ room),
        Option.map_some]

/-- The address of the next node was written in every node but the last. -/
theorem Chain.next_ne_zero (chain : Chain m a nodes) (member : node ∈ nodes.dropLast) :
    ListCursor.next m node ≠ 0 := by
  obtain ⟨k, within, rfl⟩ := List.getElem_of_mem member
  rw [List.length_dropLast] at within
  rw [List.getElem_dropLast, chain.next, List.getElem?_eq_getElem (by omega), Option.getD_some]
  exact chain.ne_zero (by omega)

/-- A chain is no longer than the bound of the cursor: a byte lies in at most eight addresses. -/
theorem Chain.length_le (chain : Chain m a nodes) : nodes.length ≤ 8 * m.extent + 1 := by
  let near (c : Address) : List Address := (List.range 8).map fun i => c - 8 - i
  have inside : nodes.dropLast ⊆ m.covered.flatMap near := by
    intro node member
    obtain ⟨i, small, written⟩ := Memory.exists_covered (chain.next_ne_zero member)
    rw [List.mem_flatMap]
    exact ⟨_, written, List.mem_map.mpr ⟨i, List.mem_range.mpr small, by
      rw [Nat.add_right_comm, Nat.add_sub_cancel, Nat.add_sub_cancel]⟩⟩
  have distinct : nodes.dropLast.Nodup := chain.nodup.sublist (List.dropLast_sublist nodes)
  have counted := (distinct.subperm inside).length_le
  have each (c : Address) : (near c).length = 8 := by rw [List.length_map, List.length_range]
  rw [List.length_flatMap, List.length_dropLast] at counted
  simp only [each, List.map_const', List.sum_replicate_nat, m.length_covered] at counted
  omega

end ListCursor
end ObjectBridge
